import TextTemplate.Decimal.Reading
import TextTemplate.Value.Datum

/-!
YAML documents as data. Maps keep their order and may have keys of any kind; a tag of one's own is a
map with one entry around what it marks.
-/
namespace TextTemplate

inductive Yaml where
  | null
  | bool (b : Bool)
  | integer (i : Int)
  | real (x : Binary64)
  | text (s : String)
  | seq (items : List Yaml)
  | map (entries : List (Yaml × Yaml))
  | tagged (tag : String) (content : Yaml)
  deriving Inhabited

namespace Yaml

mutual

def datum : Yaml → Datum
  | .null => .absent
  | .bool b => .bool b
  | .integer i => .integer i
  | .real x => .real x
  | .text s => .text s
  | .seq items => .seq (data items)
  | .map entries => .map (entryData entries)
  | .tagged tag content => .map [(.text ("!" ++ tag), datum content)]

def data : List Yaml → List Datum
  | [] => []
  | item :: items => datum item :: data items

def entryData : List (Yaml × Yaml) → List (Datum × Datum)
  | [] => []
  | (key, item) :: entries => (datum key, datum item) :: entryData entries

end

mutual

/-- Whether two keys are the same. -/
def same : Yaml → Yaml → Bool
  | .null, .null => true
  | .bool a, .bool b => a == b
  | .integer a, .integer b => a == b
  | .real a, .real b => a == b
  | .text a, .text b => a == b
  | .seq as, .seq bs => sameItems as bs
  | .map as, .map bs => sameEntries as bs
  | .tagged a content, .tagged b other => a == b && same content other
  | _, _ => false

def sameItems : List Yaml → List Yaml → Bool
  | [], [] => true
  | a :: as, b :: bs => same a b && sameItems as bs
  | _, _ => false

def sameEntries : List (Yaml × Yaml) → List (Yaml × Yaml) → Bool
  | [], [] => true
  | (key, a) :: as, (other, b) :: bs => same key other && same a b && sameEntries as bs
  | _, _ => false

end

/-- An entry for a new key. -/
def addEntry? (entries : List (Yaml × Yaml)) (key item : Yaml) : Option (List (Yaml × Yaml)) :=
  if entries.any fun (other, _) => other.same key then none else some (entries ++ [(key, item)])

end Yaml

end TextTemplate
