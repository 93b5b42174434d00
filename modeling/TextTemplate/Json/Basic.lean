import TextTemplate.Decimal.Style
import TextTemplate.Text.Quoted

/-!
JSON documents and their text without blanks. Objects keep the order of their members.
-/
namespace TextTemplate

inductive Json where
  | null
  | bool (b : Bool)
  | integer (i : Int)
  | real (x : Binary64)
  | str (s : String)
  | arr (items : List Json)
  | obj (members : List (String × Json))
  deriving Inhabited

namespace Json

def escapedChar (c : Char) : String :=
  match c with
  | '"' => "\\\""
  | '\\' => "\\\\"
  | '\x08' => "\\b"
  | '\x0c' => "\\f"
  | '\n' => "\\n"
  | '\r' => "\\r"
  | '\t' => "\\t"
  | c => if c.toNat < 0x20 then "\\u" ++ Text.hexPadded 4 c.toNat else c.toString

def quoted (s : String) : String :=
  "\"" ++ String.join (s.toList.map escapedChar) ++ "\""

/-- Only finite numbers have a text. -/
def realText : Binary64 → String
  | .finite negative units => NumberStyle.json.write (.finite negative units)
  | _ => "null"

mutual

def write : Json → String
  | .null => "null"
  | .bool b => toString b
  | .integer i => toString i
  | .real x => realText x
  | .str s => quoted s
  | .arr items => "[" ++ ",".intercalate (writeItems items) ++ "]"
  | .obj members => "\x7b" ++ ",".intercalate (writeMembers members) ++ "\x7d"

def writeItems : List Json → List String
  | [] => []
  | item :: items => write item :: writeItems items

def writeMembers : List (String × Json) → List String
  | [] => []
  | (name, value) :: members => (quoted name ++ ":" ++ write value) :: writeMembers members

end

end Json

end TextTemplate
