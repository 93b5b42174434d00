/-!
What can be wrong in JSON text, and where. Columns count bytes.
-/
namespace TextTemplate

inductive JsonProblem where
  | endInArray
  | endInObject
  | endInString
  | endInValue
  | noColon
  | noItemEnd
  | noMemberEnd
  | noWord
  | noValue
  | badEscape
  | badNumber
  | numberRange
  | controlCharacter
  | nameNoString
  | loneSurrogate
  | noSecondEscape
  | trailingComma
  | trailingText
  | tooNested
  deriving DecidableEq, Repr

namespace JsonProblem

def text : JsonProblem → String
  | .endInArray => "EOF while parsing a list"
  | .endInObject => "EOF while parsing an object"
  | .endInString => "EOF while parsing a string"
  | .endInValue => "EOF while parsing a value"
  | .noColon => "expected `:`"
  | .noItemEnd => "expected `,` or `]`"
  | .noMemberEnd => "expected `,` or `\x7d`"
  | .noWord => "expected ident"
  | .noValue => "expected value"
  | .badEscape => "invalid escape"
  | .badNumber => "invalid number"
  | .numberRange => "number out of range"
  | .controlCharacter => "control character (\\u0000-\\u001F) found while parsing a string"
  | .nameNoString => "key must be a string"
  | .loneSurrogate => "lone leading surrogate in hex escape"
  | .noSecondEscape => "unexpected end of hex escape"
  | .trailingComma => "trailing comma"
  | .trailingText => "trailing characters"
  | .tooNested => "recursion limit exceeded"

end JsonProblem

/-- A problem behind the last character that was read, or at the next one. -/
structure Unreadable where
  problem : JsonProblem
  rest : List Char
  atNext : Bool
  deriving Repr

structure JsonError where
  problem : JsonProblem
  line : Nat
  column : Nat
  deriving DecidableEq, Repr

namespace JsonError

/-- The line and the bytes in it after some characters. -/
def advance (place : Nat × Nat) (c : Char) : Nat × Nat :=
  if c = '\n' then (place.1 + 1, 0) else (place.1, place.2 + c.utf8Size)

/-- The next character counts as one byte. -/
def ofUnreadable (text : List Char) (failure : Unreadable) : JsonError :=
  let read := text.take (text.length - failure.rest.length)
  let (line, column) := read.foldl advance (1, 0)
  match failure.atNext, failure.rest with
  | true, '\n' :: _ => ⟨failure.problem, line + 1, 0⟩
  | true, _ :: _ => ⟨failure.problem, line, column + 1⟩
  | _, _ => ⟨failure.problem, line, column⟩

def message (e : JsonError) : String :=
  e.problem.text ++ " at line " ++ toString e.line ++ " column " ++ toString e.column

end JsonError

end TextTemplate
