import TextTemplate.Text.Casing
import TextTemplate.Text.Words

/-!
Identifier styles. A text is cut into words at every character that is neither letter nor number,
where a small letter is followed by a capital, and before the last of several capitals that a small
letter follows.
-/
namespace TextTemplate.Text

/-- Case of the last cased character since the last cut. -/
inductive CaseMode where
  | boundary
  | lower
  | upper
  deriving DecidableEq

def CaseMode.after (mode : CaseMode) (c : Char) : CaseMode :=
  if isLowercase c then .lower
  else if isUppercase c then .upper
  else mode

/-- Cuts the rest of a word, of which `word` is already taken. -/
def humps (mode : CaseMode) (word : List Char) : List Char → List (List Char)
  | [] => [word]
  | [c] => [word ++ [c]]
  | c :: next :: rest =>
    if mode.after c = .lower ∧ isUppercase next then (word ++ [c]) :: humps .boundary [] (next :: rest)
    else if mode = .upper ∧ isUppercase c ∧ isLowercase next then word :: humps .boundary [c] (next :: rest)
    else humps (mode.after c) (word ++ [c]) (next :: rest)

def identifierWords (cs : List Char) : List (List Char) :=
  (wordsBy (fun c => !isAlphanumeric c) cs).flatMap (humps .boundary [])

/-- Lower case of one word, in which only the last sigma can be final. -/
def lowerWord : List Char → List Char
  | [] => []
  | ['Σ'] => ['ς']
  | c :: cs => lowerChar c ++ lowerWord cs

def capitalizeWord : List Char → List Char
  | [] => []
  | c :: cs => upperChar c ++ lowerWord cs

def snake (cs : List Char) : List Char :=
  ['_'].intercalate ((identifierWords cs).map lowerWord)

def kebab (cs : List Char) : List Char :=
  ['-'].intercalate ((identifierWords cs).map lowerWord)

def pascal (cs : List Char) : List Char :=
  (identifierWords cs).flatMap capitalizeWord

def camel (cs : List Char) : List Char :=
  match identifierWords cs with
  | [] => []
  | word :: words => lowerWord word ++ words.flatMap capitalizeWord

end TextTemplate.Text
