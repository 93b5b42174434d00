import TextTemplate.Text.Classes
import TextTemplate.Text.CaseTable

/-!
Upper and lower case of texts. A capital sigma that ends a word becomes the final small sigma.
-/
namespace TextTemplate.Text

def upper (cs : List Char) : List Char :=
  cs.flatMap upperChar

/-- Whether the first character over which a word does not simply go on has case. -/
def casedAfterIgnorable (cs : List Char) : Bool :=
  ((cs.find? fun c => !isCaseIgnorable c).map isCased).getD false

/-- Lower case of a text that follows `before`, given last character first. -/
def lowerAfter (before : List Char) : List Char → List Char
  | [] => []
  | c :: cs =>
    let here :=
      if c == 'Σ' then
        if casedAfterIgnorable before && !casedAfterIgnorable cs then ['ς'] else ['σ']
      else lowerChar c
    here ++ lowerAfter (c :: before) cs

def lower (cs : List Char) : List Char :=
  lowerAfter [] cs

def capitalize : List Char → List Char
  | [] => []
  | c :: cs => upperChar c ++ cs

def uncapitalize : List Char → List Char
  | [] => []
  | c :: cs => lowerChar c ++ cs

/-- Capitalizes every character that starts a word. -/
def titleFrom (wordStarts : Bool) : List Char → List Char
  | [] => []
  | c :: cs => (if wordStarts then upperChar c else [c]) ++ titleFrom (isSpace c) cs

def title (cs : List Char) : List Char :=
  titleFrom true cs

end TextTemplate.Text
