import TextTemplate.Code.Generate

/-!
Code in one pass. Jumps are added with a placeholder for their target, and a stack of open blocks
remembers which of them wait for it. An entry of another kind than the block that ends is dropped.
-/
namespace TextTemplate

namespace Instruction

/-- The target of jumps over a branch, which other instructions do not have. -/
def withBranchTarget (target : Nat) : Instruction → Instruction
  | .jump _ => .jump target
  | .jumpIfFalse _ => .jumpIfFalse target
  | instruction => instruction

/-- The target of jumps over an operand. -/
def withOperandTarget (target : Nat) : Instruction → Instruction
  | .jumpIfFalseOrPop _ => .jumpIfFalseOrPop target
  | .jumpIfTrueOrPop _ => .jumpIfTrueOrPop target
  | instruction => instruction

end Instruction

/-- Changes an instruction that is there. -/
def Listing.patch (listing : Listing) (index : Nat) (f : Instruction → Instruction) : Listing :=
  { listing with instructions := listing.instructions.modify index f }

/-- Jumps that wait for their target. -/
inductive OpenBlock where
  | branch (jump : Nat)
  | shortCircuit (jumps : List Nat)
  deriving DecidableEq, Repr

structure Emitter where
  listing : Listing := {}
  /-- The open blocks, the last one first. -/
  blocks : List OpenBlock := []
  line : Nat := 0
  /-- The template of the section whose statements are emitted. -/
  template : Option String := none

namespace Emitter

/-- The target of a jump that waits for its own. -/
def placeholder : Nat := 0xffffffff

def next (emitter : Emitter) : Nat :=
  emitter.listing.size

def atLine (emitter : Emitter) (line : Nat) : Emitter :=
  { emitter with line }

def add (emitter : Emitter) (instruction : Instruction) : Emitter :=
  { emitter with listing := emitter.listing.addAt instruction ⟨emitter.line, emitter.template⟩ }

def endCondition (emitter : Emitter) (target : Nat) : Emitter :=
  match emitter.blocks with
  | .branch jump :: blocks =>
    { emitter with blocks, listing := emitter.listing.patch jump (·.withBranchTarget target) }
  | _ :: blocks => { emitter with blocks }
  | [] => emitter

def startIf (emitter : Emitter) : Emitter :=
  let jump := emitter.next
  let emitter := emitter.add (.jumpIfFalse placeholder)
  { emitter with blocks := .branch jump :: emitter.blocks }

def startElse (emitter : Emitter) : Emitter :=
  let jump := emitter.next
  let emitter := (emitter.add (.jump placeholder)).endCondition (jump + 1)
  { emitter with blocks := .branch jump :: emitter.blocks }

def endIf (emitter : Emitter) : Emitter :=
  emitter.endCondition emitter.next

/-- Ends a conditional with so many branches. -/
def endIfs (emitter : Emitter) : Nat → Emitter
  | 0 => emitter
  | branches + 1 => (emitter.endIfs branches).endIf

def startShortCircuit (emitter : Emitter) : Emitter :=
  { emitter with blocks := .shortCircuit [] :: emitter.blocks }

/-- Adds a jump over the right operand. -/
def shortCircuit (emitter : Emitter) (operand : Nat → Instruction) : Emitter :=
  let jump := emitter.next
  let emitter := emitter.add (operand placeholder)
  match emitter.blocks with
  | .shortCircuit jumps :: blocks => { emitter with blocks := .shortCircuit (jumps ++ [jump]) :: blocks }
  | _ => emitter

def endShortCircuit (emitter : Emitter) : Emitter :=
  match emitter.blocks with
  | .shortCircuit jumps :: blocks =>
    let target := emitter.next
    let listing := jumps.foldl (fun listing jump => listing.patch jump (·.withOperandTarget target)) emitter.listing
    { emitter with blocks, listing }
  | _ :: blocks => { emitter with blocks }
  | [] => emitter

def expr (emitter : Emitter) : Expr → Emitter
  | .var name _ => emitter.add (.lookup name)
  | .const value _ => emitter.add (.load value)
  | .member of name _ => (emitter.expr of).add (.member name)
  | .not operand _ => (emitter.expr operand).add .not
  | .binary .and left right _ =>
    (((emitter.startShortCircuit.expr left).shortCircuit .jumpIfFalseOrPop).expr right).endShortCircuit
  | .binary .or left right _ =>
    (((emitter.startShortCircuit.expr left).shortCircuit .jumpIfTrueOrPop).expr right).endShortCircuit
  | .binary .eq left right _ => ((emitter.expr left).expr right).add .eq
  | .binary .ne left right _ => ((emitter.expr left).expr right).add .ne
  | .binary .lt left right _ => ((emitter.expr left).expr right).add .lt
  | .binary .lte left right _ => ((emitter.expr left).expr right).add .lte
  | .binary .gt left right _ => ((emitter.expr left).expr right).add .gt
  | .binary .gte left right _ => ((emitter.expr left).expr right).add .gte
  | .filter name operand argument _ =>
    (emitter.expr operand).add (if name = defaultFilter then .applyDefault argument else .applyFilter name argument)

def bindings (emitter : Emitter) : List (String × Expr) → Emitter
  | [] => emitter
  | (key, path) :: rest => ((emitter.add (.load (.str key))).expr path).bindings rest

mutual

def statement (emitter : Emitter) : Filled → Emitter
  | .text raw line => (emitter.atLine line).add (.emitText raw)
  | .output value line => ((emitter.atLine line).expr value).add .emit
  | .conditional branches otherwise line =>
    (((emitter.atLine line).branches true branches).otherwise otherwise).endIfs branches.length
  | .each item collection part line => ((emitter.atLine line).expr collection).add (.each item part)
  | .inclusion name line => (emitter.atLine line).add (.includes name)
  | .embedding name bound line =>
    (((emitter.atLine line).bindings bound).add (.buildMap bound.length)).add (.embeds name)
  | .unfilled line => emitter.atLine line
  | .filled origin body line =>
    { statements { emitter with line, template := some origin } body with line, template := emitter.template }

def statements (emitter : Emitter) : List Filled → Emitter
  | [] => emitter
  | first :: rest => (emitter.statement first).statements rest

/-- The branches of a conditional; each but the first is the other case of the one before. -/
def branches (emitter : Emitter) (isFirst : Bool) : List (Expr × List Filled) → Emitter
  | [] => emitter
  | (condition, body) :: rest =>
    let emitter := if isFirst then emitter else emitter.startElse
    let emitter := ((emitter.atLine condition.span.start.line).expr condition).startIf
    (emitter.statements body).branches false rest

def otherwise (emitter : Emitter) : Option (List Filled) → Emitter
  | none => emitter
  | some body => emitter.startElse.statements body

end

/-- Emits the statements of a template. -/
def generate (all : List Filled) : Emitter :=
  ({} : Emitter).statements all

end Emitter

end TextTemplate
