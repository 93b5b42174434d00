import TextTemplate.Decimal.Reading
import TextTemplate.Fault
import TextTemplate.Text.Utf8
import TextTemplate.Value.Merge
import TextTemplate.Value.Printing

/-!
Data from outside as values. Data of any shape is given by a description; numbers without a sign
beyond the integers become floats, names of variants become maps with one entry, and keys of maps
are written as text. Describing a value and converting it back leaves nothing undefined in it.
-/
namespace TextTemplate

inductive Datum where
  /-- Data that is nothing: no value, a unit, an empty option. -/
  | absent
  | bool (b : Bool)
  | integer (i : Int)
  | real (x : Binary64)
  | text (s : String)
  | bytes (bytes : List UInt8)
  | seq (items : List Datum)
  | map (entries : List (Datum × Datum))
  /-- Values of a map that come without their keys. -/
  | keyless (values : List Datum)
  | record (fields : List (String × Datum))
  | variant (name : String) (content : Datum)
  /-- Data that cannot be described. -/
  | refused (message : String)
  deriving Inhabited

namespace Datum

/-- The text of a map key. -/
def keyText (key : Value) : Except Fault String :=
  match key with
  | .str s => .ok s
  | .bool _ | .int _ | .float _ => .ok key.display
  | _ => .error { problem := .keyNoScalar key.kind }

mutual

def value : Datum → Except Fault Value
  | .absent => .ok .none
  | .bool b => .ok (.bool b)
  | .integer i => .ok (if i ≤ integerMax then .int i else .float (.ofInt i))
  | .real x => .ok (.float x)
  | .text s => .ok (.str s)
  | .bytes bs => .ok (.str (Text.decodeLossy bs))
  | .seq items => (values items).map .seq
  | .map entries => (mapEntries [] entries).map .map
  | .keyless _ => .ok (.map [])
  | .record fields => (recordEntries [] fields).map .map
  | .variant name content => (value content).map fun v => .map [(name, v)]
  | .refused message => .error { problem := .unconvertible message }

def values : List Datum → Except Fault (List Value)
  | [] => .ok []
  | datum :: data => do
    let first ← value datum
    let rest ← values data
    .ok (first :: rest)

def mapEntries (fields : Fields Value) : List (Datum × Datum) → Except Fault (Fields Value)
  | [] => .ok fields
  | (key, content) :: rest => do
    let key ← value key
    let name ← keyText key
    let v ← value content
    mapEntries (fields.insert name v) rest

def recordEntries (fields : Fields Value) : List (String × Datum) → Except Fault (Fields Value)
  | [] => .ok fields
  | (name, content) :: rest => do
    let v ← value content
    recordEntries (fields.insert name v) rest

end

end Datum

namespace Value

mutual

/-- The description of a value. -/
def datum : Value → Datum
  | .undefined | .none => .absent
  | .bool b => .bool b
  | .int i => .integer i
  | .float x => .real x
  | .str s => .text s
  | .seq items => .seq (data items)
  | .map entries => .map (entryData entries)

def data : List Value → List Datum
  | [] => []
  | v :: vs => datum v :: data vs

def entryData : List (String × Value) → List (Datum × Datum)
  | [] => []
  | (name, v) :: entries => (.text name, datum v) :: entryData entries

end

/-- The value of a description, undefined if it cannot be converted. -/
def ofDatum (d : Datum) : Value :=
  match d.value with
  | .ok v => v
  | .error _ => .undefined

/-- The value with none in place of everything undefined. -/
def settled (v : Value) : Value :=
  ofDatum v.datum

end Value

end TextTemplate
