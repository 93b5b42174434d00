import TextTemplate.Filter.Basic
import TextTemplate.Text.CaseStyle
import TextTemplate.Text.Markup
import TextTemplate.Text.Percent
import TextTemplate.Text.Rotation
import TextTemplate.Text.Slug
import TextTemplate.Value.FromJson

/-!
The filters that every environment has, and the fallback for absent values.
-/
namespace TextTemplate.Filter

/-- Replaces an absent value. -/
def fallback (v : Value) (replacement : Option Value) : Value :=
  match replacement with
  | some other => if v.isAbsent then other else v
  | none => v

/-- A filter on the characters of a text. -/
def ofText (f : List Char → List Char) : Filter :=
  ofFunction fun s : String => f s.toList

def truncate (s : String) (limit : Nat) : List Char :=
  s.toList.take limit

def limitWords (s : String) (limit : Nat) : List Char :=
  Text.limitWords limit s.toList

def join (items : List Value) (separator : Option String) : String :=
  (separator.getD "").intercalate (items.map Value.display)

def escape (v : Value) : String :=
  Text.escape v.display

def json (v : Value) : String :=
  v.toJson.write

/-- The length of what has one; absent values have none. -/
def length (v : Value) : Value :=
  match v.length? with
  | some n => .ofUnsigned n
  | none => if v.isAbsent then .int 0 else v

def reverse (v : Value) : Value :=
  match v with
  | .str s => .str (String.ofList s.toList.reverse)
  | .seq items => .seq items.reverse
  | v => v

def characterValue : Option Char → Value
  | some c => .str c.toString
  | none => .undefined

def first (v : Value) : Value :=
  match v with
  | .str s => characterValue s.toList.head?
  | .seq items => items.head?.getD .undefined
  | v => v

def last (v : Value) : Value :=
  match v with
  | .str s => characterValue s.toList.getLast?
  | .seq items => items.getLast?.getD .undefined
  | v => v

def builtin? : String → Option Filter
  | "upper" => some (ofText Text.upper)
  | "lower" => some (ofText Text.lower)
  | "capitalize" => some (ofText Text.capitalize)
  | "lcfirst" => some (ofText Text.uncapitalize)
  | "title" => some (ofText Text.title)
  | "camel" => some (ofText Text.camel)
  | "pascal" => some (ofText Text.pascal)
  | "snake" => some (ofText Text.snake)
  | "kebab" => some (ofText Text.kebab)
  | "slugify" => some (ofText Text.slugify)
  | "truncate" => some (ofFunction₂ truncate)
  | "limit_words" => some (ofFunction₂ limitWords)
  | "join" => some (ofFunction₂ join)
  | "escape" | "e" => some (ofFunction escape)
  | "length" | "count" => some (ofFunction length)
  | "reverse" => some (ofFunction reverse)
  | "rot13" => some (ofText Text.rot13)
  | "trim" => some (ofText Text.trim)
  | "squish" => some (ofText Text.squish)
  | "nl2br" => some (ofText Text.breakLines)
  | "striptags" => some (ofText Text.stripTags)
  | "first" => some (ofFunction first)
  | "last" => some (ofFunction last)
  | "string" => some (ofFunction Value.display)
  | "json" => some (ofFunction json)
  | "urlencode" => some (ofFunction Text.percentEncode)
  | _ => none

end TextTemplate.Filter
