import TextTemplate.Value.Printing

/-!
Instructions of compiled templates. They work on a stack of values and write to the output.
-/
namespace TextTemplate

inductive Instruction where
  | emitText (text : String)
  | lookup (name : String)
  | member (name : String)
  | load (value : Value)
  | buildMap (pairs : Nat)
  | applyFilter (name : String) (argument : Option String)
  | applyDefault (argument : Option String)
  | eq
  | ne
  | lt
  | lte
  | gt
  | gte
  | not
  | emit
  | jump (target : Nat)
  | jumpIfFalse (target : Nat)
  | jumpIfFalseOrPop (target : Nat)
  | jumpIfTrueOrPop (target : Nat)
  /-- Renders a template for every item, which it sees under a name. -/
  | each (item part : String)
  | includes (name : String)
  | embeds (name : String)
  deriving Inhabited, Repr

namespace Instruction

/-- The instruction with another jump target. -/
def retarget (f : Nat → Nat) : Instruction → Instruction
  | .jump target => .jump (f target)
  | .jumpIfFalse target => .jumpIfFalse (f target)
  | .jumpIfFalseOrPop target => .jumpIfFalseOrPop (f target)
  | .jumpIfTrueOrPop target => .jumpIfTrueOrPop (f target)
  | instruction => instruction

def argumentOutline (argument : Option String) : Outline :=
  .option (argument.map .quoted)

def outline : Instruction → Outline
  | .emitText text => .call "EmitRaw" [.quoted text]
  | .lookup name => .call "Lookup" [.quoted name]
  | .member name => .call "GetAttr" [.quoted name]
  | .load value => .call "LoadConst" [value.outline]
  | .buildMap pairs => .call "BuildMap" [.nat pairs]
  | .applyFilter name argument => .call "ApplyFilter" [.quoted name, argumentOutline argument]
  | .applyDefault argument => .call "ApplyDefault" [argumentOutline argument]
  | .eq => .atom "Eq"
  | .ne => .atom "Ne"
  | .lt => .atom "Lt"
  | .lte => .atom "Lte"
  | .gt => .atom "Gt"
  | .gte => .atom "Gte"
  | .not => .atom "Not"
  | .emit => .atom "Emit"
  | .jump target => .call "Jump" [.nat target]
  | .jumpIfFalse target => .call "JumpIfFalse" [.nat target]
  | .jumpIfFalseOrPop target => .call "JumpIfFalseOrPop" [.nat target]
  | .jumpIfTrueOrPop target => .call "JumpIfTrueOrPop" [.nat target]
  | .each item part => .call "Each" [.quoted item, .quoted part]
  | .includes name => .call "Include" [.quoted name]
  | .embeds name => .call "Embed" [.quoted name]

end Instruction

end TextTemplate
