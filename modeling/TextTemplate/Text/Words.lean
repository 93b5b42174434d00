import TextTemplate.Text.Classes

/-!
Words of a text: its longest runs of characters that are not breaks.
-/
namespace TextTemplate.Text

def startsWord (isBreak : Char → Bool) : List Char → Bool
  | [] => false
  | c :: _ => !isBreak c

/-- Puts a character in front of the first word. -/
def extendFirst (c : Char) : List (List Char) → List (List Char)
  | [] => [[c]]
  | word :: words => (c :: word) :: words

def wordsBy (isBreak : Char → Bool) : List Char → List (List Char)
  | [] => []
  | c :: cs =>
    if isBreak c then wordsBy isBreak cs
    else if startsWord isBreak cs then extendFirst c (wordsBy isBreak cs)
    else [c] :: wordsBy isBreak cs

def words (cs : List Char) : List (List Char) :=
  wordsBy isSpace cs

def unwords (ws : List (List Char)) : List Char :=
  [' '].intercalate ws

/-- The words of a text with single spaces between them. -/
def squish (cs : List Char) : List Char :=
  unwords (words cs)

def limitWords (limit : Nat) (cs : List Char) : List Char :=
  unwords ((words cs).take limit)

def trimStart (cs : List Char) : List Char :=
  cs.dropWhile isSpace

def trimEnd (cs : List Char) : List Char :=
  (cs.reverse.dropWhile isSpace).reverse

def trim (cs : List Char) : List Char :=
  trimEnd (trimStart cs)

end TextTemplate.Text
