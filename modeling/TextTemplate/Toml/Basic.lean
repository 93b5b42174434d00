import TextTemplate.Table
import TextTemplate.Value.Datum

/-!
TOML documents as data. Tables are sorted by name; moments keep their text.
-/
namespace TextTemplate

inductive Toml where
  | text (s : String)
  | integer (i : Int)
  | real (x : Binary64)
  | bool (b : Bool)
  /-- A date, a time or both. -/
  | moment (s : String)
  | array (items : List Toml)
  | table (entries : List (String × Toml))
  deriving Inhabited

namespace Toml

mutual

def datum : Toml → Datum
  | .text s => .text s
  | .integer i => .integer i
  | .real x => .real x
  | .bool b => .bool b
  | .moment s => .record [("$__toml_private_datetime", .text s)]
  | .array items => .seq (data items)
  | .table entries => .record (fieldData entries)

def data : List Toml → List Datum
  | [] => []
  | item :: items => datum item :: data items

def fieldData : List (String × Toml) → List (String × Datum)
  | [] => []
  | (name, item) :: entries => (name, datum item) :: fieldData entries

end

end Toml

/-- Where the text of a document cannot be read. -/
structure TomlError where
  line : Nat
  column : Nat
  deriving DecidableEq, Repr

namespace TomlError

/-- The place of the text that is left; the end of the text stands behind its last character. -/
def ofRest (text rest : List Char) : TomlError :=
  let index := text.length - rest.length
  let last := min index (text.length - 1)
  let before := text.take last
  let column := (before.reverse.takeWhile (· != '\n')).length
  ⟨before.count '\n' + 1, column + (index - last) + 1⟩

def message (e : TomlError) : String :=
  "TOML parse error at line " ++ toString e.line ++ ", column " ++ toString e.column

end TomlError

end TextTemplate
