import TextTemplate.Json.Reading
import TextTemplate.Yaml.Basic

/-!
What the text of a scalar stands for, and how lines of a scalar are folded.
-/
namespace TextTemplate.Yaml

/-- Several digits that start with a zero are no number. -/
def hasLeadingZero (cs : List Char) : Bool :=
  match cs with
  | '-' :: '0' :: c :: rest | '+' :: '0' :: c :: rest | '0' :: c :: rest => (c :: rest).all Char.isDigit
  | _ => false

def basedDigits? (base : Nat) (cs : List Char) : Option Nat :=
  if cs.isEmpty then none
  else cs.foldlM (fun n c => (Json.hexValue? c).bind fun d => if d < base then some (base * n + d) else none) 0

/-- The size of a whole number, which may be hexadecimal, octal or binary. -/
def magnitude? : List Char → Option Nat
  | '0' :: 'x' :: cs => basedDigits? 16 cs
  | '0' :: 'o' :: cs => basedDigits? 8 cs
  | '0' :: 'b' :: cs => basedDigits? 2 cs
  | cs => basedDigits? 10 cs

def integer? (cs : List Char) : Option Int :=
  if hasLeadingZero cs then none
  else
    match cs with
    | '-' :: cs => (magnitude? cs).map fun n => -(n : Int)
    | '+' :: cs => (magnitude? cs).map Int.ofNat
    | cs => (magnitude? cs).map Int.ofNat

def real? (s : String) : Option Binary64 :=
  match s with
  | ".inf" | ".Inf" | ".INF" | "+.inf" | "+.Inf" | "+.INF" => some (.infinite false)
  | "-.inf" | "-.Inf" | "-.INF" => some (.infinite true)
  | ".nan" | ".NaN" | ".NAN" => some .nan
  | s =>
    if hasLeadingZero s.toList then none
    else
      match Binary64.read? s with
      | some (.finite negative units) => some (.finite negative units)
      | _ => none

def isNull (s : String) : Bool :=
  ["", "~", "null", "Null", "NULL"].contains s

def bool? (s : String) : Option Bool :=
  if ["true", "True", "TRUE"].contains s then some true
  else if ["false", "False", "FALSE"].contains s then some false
  else none

/-- A whole number of at most 64 bits; nothing is read from a larger one. -/
def wholeNumber? (i : Int) : Option Yaml :=
  if integerMin ≤ i ∧ i ≤ countMax then some (.integer i) else none

/-- A scalar without quotes. -/
def ofPlain? (s : String) : Option Yaml :=
  if isNull s then some .null
  else
    match bool? s, integer? s.toList, real? s with
    | some b, _, _ => some (.bool b)
    | none, some i, _ => wholeNumber? i
    | none, none, some x => some (.real x)
    | none, none, none => some (.text s)

/-- Tags that are part of the language start with this. -/
def coreTag (name : String) : String :=
  "tag:yaml.org,2002:" ++ name

/-- A scalar of a type that its tag names. -/
def ofTagged? (tag s : String) (plain : Bool) : Option Yaml :=
  if tag = coreTag "bool" then (bool? s).map .bool
  else if tag = coreTag "int" then (integer? s.toList).bind wholeNumber?
  else if tag = coreTag "float" then (real? s).map .real
  else if tag = coreTag "null" then if isNull s then some .null else none
  else
    match tag.toList with
    | '!' :: name =>
      let content := if plain then ofPlain? s else some (.text s)
      content.map (.tagged (String.ofList name))
    | _ => some (.text s)

def scalar? (tag : Option String) (s : String) (plain : Bool) : Option Yaml :=
  match tag with
  | some tag => ofTagged? tag s plain
  | none => if plain then ofPlain? s else some (.text s)

/-- A container with a tag; only tags of one's own change it. -/
def container (tag : Option String) (content : Yaml) : Yaml :=
  match tag.map String.toList with
  | some ('!' :: name) => .tagged (String.ofList name) content
  | _ => content

/-- What stands for a number of line ends between two words. -/
def foldedBreaks (n : Nat) : List Char :=
  if n ≤ 1 then [' '] else List.replicate (n - 1) '\n'

/-- A character of a quoted scalar; one that was escaped is neither a blank nor a line end. -/
structure QuotedChar where
  char : Char
  escaped : Bool

namespace QuotedChar

def isBlank (c : QuotedChar) : Bool :=
  !c.escaped && (c.char == ' ' || c.char == '\t')

def isBreak (c : QuotedChar) : Bool :=
  !c.escaped && c.char == '\n'

/-- Folds the lines of a quoted scalar. `blanks` were read but not written yet, and `breaks` counts
the line ends behind the last word. -/
def fold (blanks : List Char) (breaks : Nat) : List QuotedChar → List Char
  | [] => if breaks = 0 then blanks else foldedBreaks breaks
  | c :: cs =>
    if c.isBreak then fold [] (breaks + 1) cs
    else if c.isBlank then if breaks = 0 then fold (blanks ++ [c.char]) 0 cs else fold [] breaks cs
    else (if breaks = 0 then blanks else foldedBreaks breaks) ++ c.char :: fold [] 0 cs

end QuotedChar

/-- The rest of a scalar in single quotes. -/
def singleRest? : List Char → Option (List QuotedChar × List Char)
  | [] => none
  | '\'' :: '\'' :: cs => (singleRest? cs).map fun (s, rest) => (⟨'\'', true⟩ :: s, rest)
  | '\'' :: cs => some ([], cs)
  | c :: cs => (singleRest? cs).map fun (s, rest) => (⟨c, false⟩ :: s, rest)

def plainEscape? : Char → Option Char
  | '0' => some '\x00'
  | 'a' => some '\x07'
  | 'b' => some '\x08'
  | 't' | '\t' => some '\t'
  | 'n' => some '\n'
  | 'v' => some '\x0b'
  | 'f' => some '\x0c'
  | 'r' => some '\r'
  | 'e' => some '\x1b'
  | ' ' => some ' '
  | '"' => some '"'
  | '/' => some '/'
  | '\\' => some '\\'
  | 'N' => some '\u0085'
  | '_' => some '\u00a0'
  | 'L' => some '\u2028'
  | 'P' => some '\u2029'
  | _ => none

/-- How many hexadecimal digits follow the mark of an escape. -/
def escapeWidth? : Char → Option Nat
  | 'x' => some 2
  | 'u' => some 4
  | 'U' => some 8
  | _ => none

def codePoint? (width : Nat) (cs : List Char) : Option (Char × List Char) := do
  let n ← Json.hexNumber? (cs.take width)
  if (cs.take width).length = width ∧ n.isValidChar then some (Char.ofNat n, cs.drop width) else none

/-- The rest of a scalar in double quotes. -/
def doubleRest? (fuel : Nat) (cs : List Char) : Option (List QuotedChar × List Char) :=
  match fuel, cs with
  | 0, _ | _, [] | _, ['\\'] => none
  | _ + 1, '"' :: rest => some ([], rest)
  | fuel + 1, '\\' :: '\n' :: rest => doubleRest? fuel (rest.dropWhile fun c => c == ' ' || c == '\t')
  | fuel + 1, '\\' :: c :: rest => do
    let (char, rest) ← match escapeWidth? c with
      | some width => codePoint? width rest
      | none => (plainEscape? c).map fun char => (char, rest)
    let (s, rest) ← doubleRest? fuel rest
    some (⟨char, true⟩ :: s, rest)
  | fuel + 1, c :: rest => (doubleRest? fuel rest).map fun (s, rest) => (⟨c, false⟩ :: s, rest)

/-- A quoted scalar with its opening quote. -/
def quoted? (cs : List Char) : Option (String × List Char) := do
  let (s, rest) ← match cs with
    | '\'' :: cs => singleRest? cs
    | '"' :: cs => doubleRest? (cs.length + 1) cs
    | _ => none
  some (String.ofList (QuotedChar.fold [] 0 s), rest)

end TextTemplate.Yaml
