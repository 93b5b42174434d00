import TextTemplate.Code.Listing
import TextTemplate.Filled

/-!
Code of filled templates. Code is first generated with jumps by distance, so that the code of a
statement does not depend on where it stands, and the distances then become targets.
-/
namespace TextTemplate

/-- The filter that is no filter but part of the language. -/
def defaultFilter : String := "default"

namespace Expr

/-- Code that leaves the value of an expression on the stack; jumps have the number of instructions
they skip. -/
def code : Expr → List Instruction
  | .var name _ => [.lookup name]
  | .const value _ => [.load value]
  | .member of name _ => of.code ++ [.member name]
  | .not operand _ => operand.code ++ [.not]
  | .binary .and left right _ => left.code ++ .jumpIfFalseOrPop right.code.length :: right.code
  | .binary .or left right _ => left.code ++ .jumpIfTrueOrPop right.code.length :: right.code
  | .binary .eq left right _ => left.code ++ right.code ++ [.eq]
  | .binary .ne left right _ => left.code ++ right.code ++ [.ne]
  | .binary .lt left right _ => left.code ++ right.code ++ [.lt]
  | .binary .lte left right _ => left.code ++ right.code ++ [.lte]
  | .binary .gt left right _ => left.code ++ right.code ++ [.gt]
  | .binary .gte left right _ => left.code ++ right.code ++ [.gte]
  | .filter name operand argument _ =>
    operand.code ++ [if name = defaultFilter then .applyDefault argument else .applyFilter name argument]

end Expr

/-- An instruction and where it comes from. -/
abbrev Located := Instruction × Origin

def locate (origin : Origin) (code : List Instruction) : List Located :=
  code.map fun instruction => (instruction, origin)

namespace Filled

mutual

/-- The line of the last code of a statement. -/
def lastLine : Filled → Nat
  | .text _ line | .output _ line | .each _ _ _ line | .inclusion _ line | .embedding _ _ line
  | .unfilled line | .filled _ _ line => line
  | .conditional branches otherwise line => lastLineOtherwise (lastLineBranches line branches) otherwise

def lastLineAll (line : Nat) : List Filled → Nat
  | [] => line
  | statement :: rest => lastLineAll (lastLine statement) rest

def lastLineBranches (line : Nat) : List (Expr × List Filled) → Nat
  | [] => line
  | (condition, body) :: rest => lastLineBranches (lastLineAll condition.span.start.line body) rest

def lastLineOtherwise (line : Nat) : Option (List Filled) → Nat
  | none => line
  | some body => lastLineAll line body

end

def bindingsCode : List (String × Expr) → List Instruction
  | [] => []
  | (key, path) :: rest => .load (.str key) :: path.code ++ bindingsCode rest

mutual

/-- Code of a statement of the section that was captured from `template`, if it is part of one. -/
def code (template : Option String) : Filled → List Located
  | .text raw line => locate ⟨line, template⟩ [.emitText raw]
  | .output value line => locate ⟨line, template⟩ (value.code ++ [.emit])
  | .conditional branches otherwise _ => branchesCode template (otherwiseCode template otherwise) branches
  | .each item collection part line => locate ⟨line, template⟩ (collection.code ++ [.each item part])
  | .inclusion name line => locate ⟨line, template⟩ [.includes name]
  | .embedding name bindings line =>
    locate ⟨line, template⟩ (bindingsCode bindings ++ [.buildMap bindings.length, .embeds name])
  | .unfilled _ => []
  | .filled origin body _ => codeAll (some origin) body

def codeAll (template : Option String) : List Filled → List Located
  | [] => []
  | statement :: rest => code template statement ++ codeAll template rest

/-- A branch whose condition is false is skipped; behind a branch that runs, all others are. -/
def branchesCode (template : Option String) (otherwise : Option (List Located)) :
    List (Expr × List Filled) → List Located
  | [] => otherwise.getD []
  | (condition, body) :: rest =>
    let origin : Origin := ⟨condition.span.start.line, template⟩
    let inner := codeAll template body
    if rest.isEmpty && otherwise.isNone then
      locate origin condition.code ++ (.jumpIfFalse inner.length, origin) :: inner
    else
      let others := branchesCode template otherwise rest
      let leave : Origin := ⟨lastLineAll condition.span.start.line body, template⟩
      locate origin condition.code ++ (.jumpIfFalse (inner.length + 1), origin) :: inner
        ++ (.jump others.length, leave) :: others

def otherwiseCode (template : Option String) : Option (List Filled) → Option (List Located)
  | none => none
  | some body => some (codeAll template body)

end

end Filled

/-- Code with jumps to the index of an instruction instead of over a number of them. -/
def withTargets (code : List Located) : List Located :=
  code.mapIdx fun index (instruction, origin) => (instruction.retarget (index + 1 + ·), origin)

namespace Listing

def ofCode (code : List Located) : Listing :=
  code.foldl (fun listing (instruction, origin) => listing.addAt instruction origin) {}

def ofStatements (statements : List Filled) : Listing :=
  ofCode (withTargets (Filled.codeAll none statements))

end Listing

end TextTemplate
