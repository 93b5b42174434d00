/-!
Text in markup: characters replaced by their entities, tags removed, and line breaks.
-/
namespace TextTemplate.Text

def entity? : Char → Option String
  | '<' => some "&lt;"
  | '>' => some "&gt;"
  | '&' => some "&amp;"
  | '"' => some "&quot;"
  | '\x27' => some "&#x27;"
  | _ => none

/-- Escapes a text of which what stands in front of `start` has been written and the characters from `offset` on are
still to be read. What needs no entity is written run by run, each up to the next character that does. -/
def escapeOnto (written whole : String) (start offset : String.Pos.Raw) : List Char → String
  | [] => written ++ String.Pos.Raw.extract whole start offset
  | c :: cs =>
    match entity? c with
    | none => escapeOnto written whole start (offset + c) cs
    | some entity =>
      let copied := if start < offset then written ++ String.Pos.Raw.extract whole start offset else written
      escapeOnto (copied ++ entity) whole (offset + c) (offset + c) cs

def escape (s : String) : String :=
  escapeOnto "" s 0 0 s.toList

/-- Drops every tag; one that is not closed runs to the end. -/
def stripTagsFrom (inTag : Bool) : List Char → List Char
  | [] => []
  | c :: cs =>
    if c = '<' then stripTagsFrom true cs
    else if inTag then stripTagsFrom (c != '>') cs
    else c :: stripTagsFrom false cs

def stripTags (cs : List Char) : List Char :=
  stripTagsFrom false cs

/-- Writes a break in front of every line end. -/
def breakLines : List Char → List Char
  | [] => []
  | '\r' :: '\n' :: cs => "<br>\r\n".toList ++ breakLines cs
  | '\n' :: cs => "<br>\n".toList ++ breakLines cs
  | c :: cs => c :: breakLines cs

end TextTemplate.Text
