import TextTemplate.Decimal.Stepwise
import TextTemplate.Json.Basic
import TextTemplate.Json.Problem

/-!
Reading JSON text. Whole numbers that fit 64 bits stay whole, all others become doubles; a number
beyond the largest double, and arrays and objects nested too deeply, are refused.
-/
namespace TextTemplate.Json

/-- A problem behind what was read. -/
def stop {α : Type} (problem : JsonProblem) (rest : List Char) : Except Unreadable α :=
  .error ⟨problem, rest, false⟩

/-- A problem with what comes next. -/
def refuse {α : Type} (problem : JsonProblem) (rest : List Char) : Except Unreadable α :=
  .error ⟨problem, rest, true⟩

def isBlank (c : Char) : Bool :=
  c == ' ' || c == '\t' || c == '\n' || c == '\r'

def skipBlanks (cs : List Char) : List Char :=
  cs.dropWhile isBlank

def word (json : Json) : List Char → List Char → Except Unreadable (Json × List Char)
  | [], cs => .ok (json, cs)
  | _ :: _, [] => stop .endInValue []
  | e :: es, c :: cs => if c = e then word json es cs else stop .noWord cs

def hexValue? (c : Char) : Option Nat :=
  if c.isDigit then some (c.toNat - '0'.toNat)
  else if 'a' ≤ c ∧ c ≤ 'f' then some (c.toNat - 'a'.toNat + 10)
  else if 'A' ≤ c ∧ c ≤ 'F' then some (c.toNat - 'A'.toNat + 10)
  else none

def hexNumber? (cs : List Char) : Option Nat :=
  cs.foldlM (fun n c => (hexValue? c).map (16 * n + ·)) 0

def hexEscape : List Char → Except Unreadable (Nat × List Char)
  | a :: b :: c :: d :: rest =>
    match hexNumber? [a, b, c, d] with
    | some n => .ok (n, rest)
    | none => stop .badEscape rest
  | _ => stop .endInString []

def isHighSurrogate (n : Nat) : Bool :=
  0xD800 ≤ n && n < 0xDC00

def isLowSurrogate (n : Nat) : Bool :=
  0xDC00 ≤ n && n < 0xE000

/-- The second half of a pair of escapes for one character. -/
def lowSurrogate : List Char → Except Unreadable (Nat × List Char)
  | '\\' :: 'u' :: cs => do
    let (n, rest) ← hexEscape cs
    if isLowSurrogate n then .ok (n, rest) else stop .loneSurrogate rest
  | ['\\'] | [] => stop .endInString []
  | '\\' :: _ :: rest | _ :: rest => stop .noSecondEscape rest

def unicodeEscape (cs : List Char) : Except Unreadable (Char × List Char) := do
  let (first, rest) ← hexEscape cs
  if isLowSurrogate first then stop .loneSurrogate rest
  else if isHighSurrogate first then
    let (second, rest) ← lowSurrogate rest
    .ok (Char.ofNat (0x10000 + (first - 0xD800) * 0x400 + (second - 0xDC00)), rest)
  else .ok (Char.ofNat first, rest)

/-- What stands behind a backslash. -/
def escape : List Char → Except Unreadable (Char × List Char)
  | [] => stop .endInString []
  | '"' :: cs => .ok ('"', cs)
  | '\\' :: cs => .ok ('\\', cs)
  | '/' :: cs => .ok ('/', cs)
  | 'b' :: cs => .ok ('\x08', cs)
  | 'f' :: cs => .ok ('\x0c', cs)
  | 'n' :: cs => .ok ('\n', cs)
  | 'r' :: cs => .ok ('\r', cs)
  | 't' :: cs => .ok ('\t', cs)
  | 'u' :: cs => unicodeEscape cs
  | _ :: cs => stop .badEscape cs

/-- The rest of a string after its opening quote; every step takes a character from the text, so it
takes no more steps than there are characters. -/
def stringRest (fuel : Nat) (cs : List Char) : Except Unreadable (List Char × List Char) :=
  match fuel, cs with
  | 0, _ | _, [] => stop .endInString []
  | _ + 1, '"' :: cs => .ok ([], cs)
  | fuel + 1, '\\' :: cs => do
    let (c, rest) ← escape cs
    let (text, rest) ← stringRest fuel rest
    .ok (c :: text, rest)
  | fuel + 1, c :: cs => do
    if c.toNat < 0x20 then stop .controlCharacter cs
    else
      let (text, rest) ← stringRest fuel cs
      .ok (c :: text, rest)

def string (cs : List Char) : Except Unreadable (String × List Char) := do
  let (text, rest) ← stringRest (cs.length + 1) cs
  .ok (String.ofList text, rest)

/-- Digits without a zero in front. -/
def wholeDigits : List Char → Except Unreadable (List Char × List Char)
  | [] => stop .endInValue []
  | '0' :: cs =>
    if (cs.head?.map Char.isDigit).getD false then refuse .badNumber cs else .ok (['0'], cs)
  | c :: cs => if c.isDigit then .ok (spanDigits (c :: cs)) else stop .badNumber cs

/-- The digits behind a point. -/
def fractionDigits : List Char → Except Unreadable (List Char × List Char)
  | '.' :: cs =>
    match spanDigits cs with
    | ([], []) => refuse .endInValue []
    | ([], rest) => refuse .badNumber rest
    | digits => .ok digits
  | rest => .ok ([], rest)

/-- The exponent, if there is one. -/
def exponent : List Char → Except Unreadable (Option Int × List Char)
  | [] => .ok (none, [])
  | e :: cs =>
    if e ≠ 'e' ∧ e ≠ 'E' then .ok (none, e :: cs)
    else
      let (negative, cs) := match cs with
        | '-' :: cs => (true, cs)
        | '+' :: cs => (false, cs)
        | cs => (false, cs)
      match spanDigits cs with
      | ([], []) => stop .endInValue []
      | ([], _ :: rest) => stop .badNumber rest
      | (digits, rest) => .ok (some (if negative then -(natOfDigits digits : Int) else natOfDigits digits), rest)

/-- A number without fraction and exponent that stays whole. -/
def wholeNumber? (negative : Bool) (n : Nat) : Option Json :=
  if negative then if n ≠ 0 ∧ n ≤ Nat.pow 2 63 then some (.integer (-(n : Int))) else none
  else if n ≤ countMax then some (.integer n)
  else none

/-- A number after its sign. -/
def number (negative : Bool) (cs : List Char) : Except Unreadable (Json × List Char) := do
  let (whole, rest) ← wholeDigits cs
  let (fraction, rest) ← fractionDigits rest
  let (power, rest) ← exponent rest
  let asWhole := if fraction.isEmpty && power.isNone then wholeNumber? negative (natOfDigits whole) else none
  match asWhole with
  | some json => .ok (json, rest)
  | none =>
    match Stepwise.read? negative (Stepwise.ofDigits whole fraction (power.getD 0)) with
    | some x => .ok (.real x, rest)
    | none => stop .numberRange rest

mutual

/-- A value at the start of a text; `levels` more arrays and objects may enclose one another. -/
def value (fuel levels : Nat) (cs : List Char) : Except Unreadable (Json × List Char) :=
  match fuel with
  | 0 => stop .tooNested cs
  | fuel + 1 =>
    match skipBlanks cs with
    | [] => refuse .endInValue []
    | 'n' :: rest => word .null "ull".toList rest
    | 't' :: rest => word (.bool true) "rue".toList rest
    | 'f' :: rest => word (.bool false) "alse".toList rest
    | '"' :: rest => do
      let (text, rest) ← string rest
      .ok (.str text, rest)
    | '[' :: rest =>
      match levels with
      | 0 => refuse .tooNested ('[' :: rest)
      | levels + 1 => do
        let (items, rest) ← items fuel levels rest
        .ok (.arr items, rest)
    | '\x7b' :: rest =>
      match levels with
      | 0 => refuse .tooNested ('\x7b' :: rest)
      | levels + 1 => do
        let (members, rest) ← members fuel levels rest
        .ok (.obj members, rest)
    | '-' :: rest => number true rest
    | c :: rest => if c.isDigit then number false (c :: rest) else refuse .noValue (c :: rest)

/-- The items of an array after its bracket. -/
def items (fuel levels : Nat) (cs : List Char) : Except Unreadable (List Json × List Char) :=
  match fuel with
  | 0 => stop .tooNested cs
  | fuel + 1 =>
    match skipBlanks cs with
    | [] => refuse .endInArray []
    | ']' :: rest => .ok ([], rest)
    | rest => do
      let (item, rest) ← value fuel levels rest
      let (others, rest) ← moreItems fuel levels rest
      .ok (item :: others, rest)

/-- The items of an array after one of them. -/
def moreItems (fuel levels : Nat) (cs : List Char) : Except Unreadable (List Json × List Char) :=
  match fuel with
  | 0 => stop .tooNested cs
  | fuel + 1 =>
    match skipBlanks cs with
    | [] => refuse .endInArray []
    | ']' :: rest => .ok ([], rest)
    | ',' :: rest =>
      match skipBlanks rest with
      | [] => refuse .endInValue []
      | ']' :: rest => refuse .trailingComma (']' :: rest)
      | rest => do
        let (item, rest) ← value fuel levels rest
        let (others, rest) ← moreItems fuel levels rest
        .ok (item :: others, rest)
    | rest => refuse .noItemEnd rest

/-- A member of an object after the quote that opens its name. -/
def member (fuel levels : Nat) (cs : List Char) : Except Unreadable ((String × Json) × List Char) :=
  match fuel with
  | 0 => stop .tooNested cs
  | fuel + 1 => do
    let (name, rest) ← string cs
    match skipBlanks rest with
    | [] => refuse .endInObject []
    | ':' :: rest => do
      let (content, rest) ← value fuel levels rest
      .ok ((name, content), rest)
    | rest => refuse .noColon rest

/-- The members of an object after its brace. -/
def members (fuel levels : Nat) (cs : List Char) : Except Unreadable (List (String × Json) × List Char) :=
  match fuel with
  | 0 => stop .tooNested cs
  | fuel + 1 =>
    match skipBlanks cs with
    | [] => refuse .endInObject []
    | '\x7d' :: rest => .ok ([], rest)
    | '"' :: rest => do
      let (first, rest) ← member fuel levels rest
      let (others, rest) ← moreMembers fuel levels rest
      .ok (first :: others, rest)
    | rest => refuse .nameNoString rest

/-- The members of an object after one of them. -/
def moreMembers (fuel levels : Nat) (cs : List Char) : Except Unreadable (List (String × Json) × List Char) :=
  match fuel with
  | 0 => stop .tooNested cs
  | fuel + 1 =>
    match skipBlanks cs with
    | [] => refuse .endInObject []
    | '\x7d' :: rest => .ok ([], rest)
    | ',' :: rest =>
      match skipBlanks rest with
      | [] => refuse .endInValue []
      | '"' :: rest => do
        let (next, rest) ← member fuel levels rest
        let (others, rest) ← moreMembers fuel levels rest
        .ok (next :: others, rest)
      | '\x7d' :: rest => refuse .trailingComma ('\x7d' :: rest)
      | rest => refuse .nameNoString rest
    | rest => refuse .noMemberEnd rest

end

/-- Of three nested steps one takes a character from the text. -/
def document (levels : Nat) (cs : List Char) : Except Unreadable Json := do
  let (json, rest) ← value (3 * cs.length + 3) levels cs
  let rest := skipBlanks rest
  if rest.isEmpty then .ok json else refuse .trailingText rest

def readWithin (levels : Nat) (text : String) : Except JsonError Json :=
  match document levels text.toList with
  | .ok json => .ok json
  | .error failure => .error (.ofUnreadable text.toList failure)

/-- The deepest nesting of arrays and objects in a document that is read without other bounds. -/
def maxLevels : Nat := 127

def read (text : String) : Except JsonError Json :=
  readWithin maxLevels text

end TextTemplate.Json
