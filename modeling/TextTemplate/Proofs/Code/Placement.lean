import TextTemplate.Code.Generate

/-!
Where generated code stands in a listing. Code of a statement has jumps by distance and does not
depend on its place; the listing holds it at some index with the distances turned into targets.
-/
namespace TextTemplate

namespace Listing

theorem instructions_foldl_addAt (code : List Located) (listing : Listing) :
    (code.foldl (fun listing (instruction, origin) => listing.addAt instruction origin) listing).instructions.toList =
      listing.instructions.toList ++ code.map Prod.fst := by
  induction code generalizing listing with
  | nil => simp
  | cons first rest ih =>
    rw [List.foldl_cons, ih]
    simp [addAt]

theorem instructions_ofCode (code : List Located) : (ofCode code).instructions.toList = code.map Prod.fst := by
  simp [ofCode, instructions_foldl_addAt]

/-- The listing has the code from the index `start` on. -/
def Holds (listing : Listing) (start : Nat) (code : List Instruction) : Prop :=
  ∀ index instruction, code[index]? = some instruction →
    listing.get? (start + index) = some (instruction.retarget (start + index + 1 + ·))

variable {listing : Listing} {start : Nat}

@[simp]
theorem holds_nil : listing.Holds start [] := by
  intro index instruction found
  simp at found

theorem holds_cons {first : Instruction} {rest : List Instruction} :
    listing.Holds start (first :: rest) ↔
      listing.get? start = some (first.retarget (start + 1 + ·)) ∧ listing.Holds (start + 1) rest := by
  constructor
  · intro holds
    constructor
    · exact holds 0 first rfl
    intro index instruction found
    have placed := holds (index + 1) instruction (by simpa using found)
    simpa only [Nat.add_assoc, Nat.add_comm 1] using placed
  · rintro ⟨placed, holds⟩ index instruction found
    cases index with
    | zero =>
      obtain rfl : first = instruction := by simpa using found
      exact placed
    | succ index =>
      have placed := holds index instruction (by simpa using found)
      simpa only [Nat.add_assoc, Nat.add_comm 1] using placed

theorem holds_append {first rest : List Instruction} :
    listing.Holds start (first ++ rest) ↔
      listing.Holds start first ∧ listing.Holds (start + first.length) rest := by
  induction first generalizing start with
  | nil => simp
  | cons instruction first ih =>
    simp only [List.cons_append, holds_cons, ih, List.length_cons, and_assoc]
    rw [Nat.add_assoc, Nat.add_comm 1]

theorem get?_ofStatements (statements : List Filled) (index : Nat) :
    (ofStatements statements).get? index =
      ((Filled.codeAll none statements)[index]?).map fun located => located.1.retarget (index + 1 + ·) := by
  rw [get?, ofStatements, ← Array.getElem?_toList, instructions_ofCode]
  simp [withTargets, List.getElem?_mapIdx, Function.comp_def]

theorem holds_ofStatements (statements : List Filled) :
    (ofStatements statements).Holds 0 ((Filled.codeAll none statements).map Prod.fst) := by
  intro index instruction found
  rw [List.getElem?_map] at found
  obtain ⟨located, placed, rfl⟩ := Option.map_eq_some_iff.mp found
  rw [Nat.zero_add, get?_ofStatements, placed, Option.map_some]

theorem size_ofStatements (statements : List Filled) :
    (ofStatements statements).instructions.size = (Filled.codeAll none statements).length := by
  rw [← Array.length_toList, ofStatements, instructions_ofCode]
  simp [withTargets]

end Listing

end TextTemplate
