import TextTemplate.Json.Basic
import TextTemplate.Table
import TextTemplate.Value.Merge

/-!
Values as JSON documents and back. Absent values become null and null becomes none; the members of
an object are read in the order of their names.
-/
namespace TextTemplate.Value

mutual

def toJson : Value → Json
  | .undefined | .none => .null
  | .bool b => .bool b
  | .int i => .integer i
  | .float x => .real x
  | .str s => .str s
  | .seq items => .arr (toJsons items)
  | .map entries => .obj (toMembers entries)

def toJsons : List Value → List Json
  | [] => []
  | v :: vs => toJson v :: toJsons vs

def toMembers : List (String × Value) → List (String × Json)
  | [] => []
  | (name, v) :: entries => (name, toJson v) :: toMembers entries

end

def ofInteger (i : Int) : Value :=
  if i < 0 then .int i else ofUnsigned i.toNat

mutual

def ofJson : Json → Value
  | .null => .none
  | .bool b => .bool b
  | .integer i => ofInteger i
  | .real x => .float x
  | .str s => .str s
  | .arr items => .seq (ofJsons items)
  | .obj members => .map (Table.ofList (ofMembers members)).entries

def ofJsons : List Json → List Value
  | [] => []
  | json :: jsons => ofJson json :: ofJsons jsons

def ofMembers : List (String × Json) → List (String × Value)
  | [] => []
  | (name, json) :: members => (name, ofJson json) :: ofMembers members

end

end TextTemplate.Value
