import TextTemplate.Code.Instruction

/-!
Instructions with the lines they come from. A line holds for all instructions up to the next one
that is given another; an instruction from a section body also has the template of that section.
Which of the marks holds for an instruction is found by halving.
-/
namespace TextTemplate

structure Origin where
  line : Nat
  template : Option String
  deriving DecidableEq, Repr

/-- From the instruction `first` on, instructions come from `origin`. -/
structure OriginMark where
  first : Nat
  origin : Origin
  deriving DecidableEq, Repr

/-- Where the search for an index ends: at the mark that starts there, or at the place such a mark would have. -/
inductive MarkPlace where
  | found (place : Nat)
  | missing (place : Nat)
  deriving DecidableEq, Repr

/-- Searches the marks from `low` to `high` for the one that starts at an index. They stand in the order
of where they start; those in front of `low` start before the index, those from `high` on behind it. -/
def OriginMark.search (marks : Array OriginMark) (index low high : Nat) (within : high ≤ marks.size) : MarkPlace :=
  if nonempty : low < high then
    let middle := low + (high - low) / 2
    match compare marks[middle].first index with
    | .lt => search marks index (middle + 1) high within
    | .eq => .found middle
    | .gt => search marks index low middle (by omega)
  else .missing low
termination_by high - low

structure Listing where
  instructions : Array Instruction := #[]
  marks : Array OriginMark := #[]

namespace Listing

def size (listing : Listing) : Nat :=
  listing.instructions.size

def get? (listing : Listing) (index : Nat) : Option Instruction :=
  listing.instructions[index]?

def add (listing : Listing) (instruction : Instruction) : Listing :=
  { listing with instructions := listing.instructions.push instruction }

/-- Adds an instruction that comes from a place. -/
def addAt (listing : Listing) (instruction : Instruction) (origin : Origin) : Listing :=
  let marks :=
    if listing.marks.back?.map (·.origin) = some origin then listing.marks
    else listing.marks.push ⟨listing.size, origin⟩
  { instructions := listing.instructions.push instruction, marks }

/-- Replaces an instruction that is there. -/
def replace (listing : Listing) (index : Nat) (instruction : Instruction) : Listing :=
  { listing with instructions := listing.instructions.setIfInBounds index instruction }

/-- The mark that holds for an instruction: the one that starts there, or the last one before. -/
def mark? (listing : Listing) (index : Nat) : Option OriginMark :=
  match OriginMark.search listing.marks index 0 listing.marks.size (Nat.le_refl _) with
  | .found place => listing.marks[place]?
  | .missing 0 => none
  | .missing (place + 1) => listing.marks[place]?

def origin? (listing : Listing) (index : Nat) : Option Origin :=
  (listing.mark? index).map (·.origin)

def line? (listing : Listing) (index : Nat) : Option Nat :=
  (listing.origin? index).map (·.line)

def template? (listing : Listing) (index : Nat) : Option String :=
  (listing.origin? index).bind (·.template)

/-- One line of the printed form; the source line stands where it changes. -/
def entryText (listing : Listing) (index : Nat) (instruction : Instruction) : String :=
  let before := if index = 0 then none else listing.line? (index - 1)
  let line := listing.line? index
  let note := match line with
    | some n => if line = before then "" else "  [line " ++ toString n ++ "]"
    | none => ""
  Text.hexPadded 5 index ++ " | " ++ instruction.outline.compact ++ note

def outline (listing : Listing) : Outline :=
  .list (listing.instructions.toList.mapIdx fun index instruction => .atom (listing.entryText index instruction))

end Listing

end TextTemplate
