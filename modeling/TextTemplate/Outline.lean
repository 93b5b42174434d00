import TextTemplate.Text.Quoted

/-!
Printed forms of structured data, on one line or indented with one item a line.
-/
namespace TextTemplate

inductive Outline where
  | atom (text : String)
  | field (name : String) (value : Outline)
  | entry (key value : Outline)
  /-- Items between an opening and a closing text; `spaced` leaves blanks beside both. -/
  | group (opening : String) (items : List Outline) (closing : String) (spaced : Bool)
  /-- A form that a mark follows directly. -/
  | marked (form : Outline) (mark : String)
  deriving Inhabited

namespace Outline

def quoted (s : String) : Outline :=
  .atom (Text.quoted s)

def nat (n : Nat) : Outline :=
  .atom (toString n)

def list (items : List Outline) : Outline :=
  .group "[" items "]" false

def map (entries : List Outline) : Outline :=
  .group "\x7b" entries "\x7d" false

def record (name : String) (fields : List Outline) : Outline :=
  .group (name ++ " \x7b") fields "\x7d" true

def call (name : String) (arguments : List Outline) : Outline :=
  .group (name ++ "(") arguments ")" false

def pair (a b : Outline) : Outline :=
  .call "" [a, b]

def option : Option Outline → Outline
  | none => .atom "None"
  | some form => .call "Some" [form]

mutual

/-- The form on one line. -/
def compact : Outline → String
  | .atom text => text
  | .field name value => name ++ ": " ++ compact value
  | .entry key value => compact key ++ ": " ++ compact value
  | .group opening items closing spaced =>
    let blank := if spaced then " " else ""
    opening ++ blank ++ ", ".intercalate (compactAll items) ++ blank ++ closing
  | .marked form mark => compact form ++ mark

def compactAll : List Outline → List String
  | [] => []
  | item :: items => compact item :: compactAll items

end

def margin (depth : Nat) : String :=
  String.ofList (List.replicate (4 * depth) ' ')

mutual

/-- The form with every item on a line of its own, `depth` steps from the margin. -/
def indentedAt (depth : Nat) : Outline → String
  | .atom text => text
  | .field name value => name ++ ": " ++ indentedAt depth value
  | .entry key value => indentedAt depth key ++ ": " ++ indentedAt depth value
  | .group opening items closing _ =>
    if items.isEmpty then opening ++ closing
    else opening ++ "\n" ++ String.join (indentedLines (depth + 1) items) ++ margin depth ++ closing
  | .marked form mark => indentedAt depth form ++ mark

def indentedLines (depth : Nat) : List Outline → List String
  | [] => []
  | item :: items => (margin depth ++ indentedAt depth item ++ ",\n") :: indentedLines depth items

end

def indented (form : Outline) : String :=
  indentedAt 0 form

end Outline

end TextTemplate
