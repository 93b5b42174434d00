import TextTemplate.Decimal.Style
import TextTemplate.Fields

/-!
Values of template variables. A value that is missing and one that is explicitly empty are told
apart but treated alike: both are absent.
-/
namespace TextTemplate

inductive Value where
  | undefined
  | none
  | bool (b : Bool)
  | int (i : Int)
  | float (x : Binary64)
  | str (s : String)
  | seq (items : List Value)
  | map (entries : List (String × Value))
  deriving Inhabited, Repr

inductive ValueKind where
  | undefined
  | none
  | bool
  | number
  | string
  | seq
  | map
  deriving DecidableEq, Repr

namespace ValueKind

def name : ValueKind → String
  | .undefined => "undefined"
  | .none => "none"
  | .bool => "bool"
  | .number => "number"
  | .string => "string"
  | .seq => "sequence"
  | .map => "map"

/-- The name in structured listings. -/
def listing : ValueKind → String
  | .undefined => "Undefined"
  | .none => "None"
  | .bool => "Bool"
  | .number => "Number"
  | .string => "String"
  | .seq => "Seq"
  | .map => "Map"

end ValueKind

namespace Value

def kind : Value → ValueKind
  | .undefined => .undefined
  | .none => .none
  | .bool _ => .bool
  | .int _ | .float _ => .number
  | .str _ => .string
  | .seq _ => .seq
  | .map _ => .map

def isUndefined : Value → Bool
  | .undefined => true
  | _ => false

def isNone : Value → Bool
  | .none => true
  | _ => false

def isAbsent : Value → Bool
  | .undefined | .none => true
  | _ => false

/-- Absent values, false, zero, the empty text and empty containers are false. -/
def isTrue : Value → Bool
  | .undefined | .none => false
  | .bool b => b
  | .int i => i != 0
  | .float x => !x.isZero
  | .str s => !s.isEmpty
  | .seq items => !items.isEmpty
  | .map entries => !entries.isEmpty

def asInt? : Value → Option Int
  | .int i => some i
  | _ => Option.none

def asFloat? : Value → Option Binary64
  | .int i => some (.ofInt i)
  | .float x => some x
  | _ => Option.none

def asText? : Value → Option String
  | .str s => some s
  | _ => Option.none

def asSeq? : Value → Option (List Value)
  | .seq items => some items
  | _ => Option.none

def asMap? : Value → Option (Fields Value)
  | .map entries => some entries
  | _ => Option.none

/-- Characters of a text, items of a sequence, entries of a map. -/
def length? : Value → Option Nat
  | .str s => some s.length
  | .seq items => some items.length
  | .map entries => some entries.length
  | _ => Option.none

/-- What an iteration passes over: nothing in an absent value, the items of a sequence and the
values of a map. -/
def items? : Value → Option (List Value)
  | .undefined | .none => some []
  | .seq items => some items
  | .map entries => some (Fields.values entries)
  | _ => Option.none

/-- A number that has 64 bits without a sign, as a float if it is beyond the integers. -/
def ofUnsigned (n : Nat) : Value :=
  if (n : Int) ≤ Int.pow 2 63 - 1 then .int n else .float (.ofInt n)

end Value

end TextTemplate
