import TextTemplate.Decimal.Reading
import TextTemplate.Problem
import TextTemplate.Syntax.Token
import TextTemplate.Text.Classes
import TextTemplate.Text.Lines

/-!
Cutting a source into tokens. Outside of tags everything is text; two opening braces start a tag
only if two closing braces follow before the next two opening ones. A cursor stands before the rest
of a source; a step from it gives a token or a problem and the cursor behind. A reader stops at the
first problem; one who goes on asking goes on from the cursor behind it.
-/
namespace TextTemplate

namespace Lexer

/-- How many characters stand in front of the first place where `c` stands twice in a row. -/
def pairIndex? (c : Char) : List Char → Option Nat
  | [] => none
  | [_] => none
  | a :: b :: cs =>
    if a = c ∧ b = c then some 0 else (pairIndex? c (b :: cs)).map (· + 1)

def startsPair (c : Char) : List Char → Bool
  | a :: b :: _ => a == c && b == c
  | _ => false

/-- Whether a tag can start in front of the given text. -/
def opensTag (body : List Char) : Bool :=
  match pairIndex? '\x7d' body with
  | some stop => (pairIndex? '\x7b' (body.take stop)).isNone
  | none => false

/-- Length of the text in front of the next two opening braces. -/
def openerIndex (cs : List Char) : Nat :=
  (pairIndex? '\x7b' cs).getD cs.length

/-- Length of the text at the start of a source that starts no tag; two opening braces that start
it belong to it. -/
def textLength (cs : List Char) : Nat :=
  if startsPair '\x7b' cs then 2 + openerIndex (cs.drop 2) else openerIndex cs

/-- Operators of two characters. -/
def pairOperator? (a b : Char) : Option Token :=
  match a, b with
  | '=', '=' => some .eq
  | '!', '=' => some .ne
  | '>', '=' => some .gte
  | '<', '=' => some .lte
  | '=', '>' => some .arrow
  | '&', '&' => some .andAnd
  | '|', '|' => some .orOr
  | _, _ => none

/-- Operators and brackets of one character. -/
def singleOperator? (c : Char) : Option Token :=
  match c with
  | '!' => some .bang
  | '.' => some .dot
  | ',' => some .comma
  | ':' => some .colon
  | '|' => some .pipe
  | '>' => some .gt
  | '<' => some .lt
  | '(' => some .parenOpen
  | ')' => some .parenClose
  | '[' => some .bracketOpen
  | ']' => some .bracketClose
  | _ => none

/-- The characters up to the quote that ends a string; a backslash takes the next character along. -/
def stringBody? (quote : Char) : List Char → Option (List Char)
  | [] => none
  | [c] => if c = quote then some [] else none
  | c :: d :: cs =>
    if c = quote then some []
    else if c = '\\' then (stringBody? quote cs).map fun body => c :: d :: body
    else (stringBody? quote (d :: cs)).map (c :: ·)

def escapedChar? : Char → Option Char
  | 'n' => some '\n'
  | 'r' => some '\r'
  | 't' => some '\t'
  | '\\' => some '\\'
  | '\x27' => some '\x27'
  | '"' => some '"'
  | '/' => some '/'
  | _ => none

def unescape? : List Char → Option (List Char)
  | [] => some []
  | [c] => if c = '\\' then none else some [c]
  | c :: d :: cs =>
    if c = '\\' then do
      let e ← escapedChar? d
      let rest ← unescape? cs
      some (e :: rest)
    else (unescape? (d :: cs)).map (c :: ·)

/-- The token of a string body; a bad escape is found when the whole string has been passed. -/
def stringToken (body : List Char) : Except SyntaxProblem Token :=
  if body.contains '\\' then
    match unescape? body with
    | some text => .ok (.escapedString (String.ofList text))
    | none => .error .badEscape
  else .ok (.plainString (String.ofList body))

/-- Length of the fraction after the digits of a number; a point without digits is none. -/
def fractionLength : List Char → Nat
  | '.' :: cs => if (spanDigits cs).1.isEmpty then 0 else (spanDigits cs).1.length + 1
  | _ => 0

def numberLength (cs : List Char) : Nat :=
  (spanDigits cs).1.length + fractionLength (spanDigits cs).2

def numberToken (cs : List Char) : Except SyntaxProblem Token :=
  let (digits, rest) := spanDigits cs
  if fractionLength rest = 0 then
    let n := natOfDigits digits
    if (n : Int) ≤ integerMax then .ok (.int n) else .error .integerRange
  else
    match Decimal.read? (cs.take (numberLength cs)) with
    | some decimal => .ok (.float (decimal.toBinary64 false))
    | none => .error .integerRange

def isWordStart (c : Char) : Bool :=
  c.isAlpha || c == '_'

def isWordChar (c : Char) : Bool :=
  c.isAlphanum || c == '_'

/-- What a step inside a tag finds: a token or a problem, and how many characters it takes. -/
structure Piece where
  found : Except SyntaxProblem Token
  length : Nat

/-- The piece that starts with `c`, which is no blank. -/
def tagPiece (c : Char) (cs : List Char) : Piece :=
  match cs.head?.bind (pairOperator? c) with
  | some token => ⟨.ok token, 2⟩
  | none =>
    match singleOperator? c with
    | some token => ⟨.ok token, 1⟩
    | none =>
      if c = '\x27' ∨ c = '"' then
        match stringBody? c cs with
        | some body => ⟨stringToken body, body.length + 2⟩
        | none => ⟨.error .unendedString, 0⟩
      else if c.isDigit then ⟨numberToken (c :: cs), numberLength (c :: cs)⟩
      else if isWordStart c then
        let rest := cs.takeWhile isWordChar
        ⟨.ok (.word (String.ofList (c :: rest))), rest.length + 1⟩
      else ⟨.error .unexpectedCharacter, 0⟩

end Lexer

/-- A place in a source that is being cut into tokens. -/
structure Cursor where
  inTag : Bool := false
  position : Position := {}
  rest : List Char
  deriving DecidableEq, Repr

namespace Cursor

/-- What a step finds. -/
inductive Step where
  | finished
  | lexeme (lexeme : Lexeme) (next : Cursor)
  | failed (problem : SyntaxProblem) (next : Cursor)

def advance (cursor : Cursor) (n : Nat) : Cursor :=
  { cursor with position := cursor.position.after (cursor.rest.take n), rest := cursor.rest.drop n }

def skipBlanks (cursor : Cursor) : Cursor :=
  cursor.advance (cursor.rest.takeWhile Text.isTagSpace).length

/-- The step that takes `n` characters as one token. -/
def emit (cursor : Cursor) (token : Token) (n : Nat) (inTag : Bool) : Step :=
  let next := cursor.advance n
  .lexeme ⟨token, cursor.position, next.position⟩ { next with inTag }

def stepInText (cursor : Cursor) : Step :=
  match cursor.rest with
  | [] => .finished
  | c :: cs =>
    if Lexer.startsPair '\x7b' (c :: cs) && Lexer.opensTag (cs.drop 1) then cursor.emit .tagStart 2 true
    else
      let n := Lexer.textLength (c :: cs)
      cursor.emit (.text (String.ofList ((c :: cs).take n))) n false

def stepInTag (cursor : Cursor) : Step :=
  let cursor := cursor.skipBlanks
  match cursor.rest with
  | [] => .failed .endInsideTag cursor
  | c :: cs =>
    if Lexer.startsPair '\x7d' (c :: cs) then cursor.emit .tagEnd 2 false
    else
      let piece := Lexer.tagPiece c cs
      match piece.found with
      | .ok token => cursor.emit token piece.length true
      | .error problem => .failed problem (cursor.advance piece.length)

def step (cursor : Cursor) : Step :=
  if cursor.inTag then cursor.stepInTag else cursor.stepInText

/-- What is given to one who asks for an item at a cursor, and the cursor behind; nothing at the end. -/
def next (cursor : Cursor) : Option (Except SyntaxProblem Lexeme) × Cursor :=
  match cursor.step with
  | .finished => (none, cursor)
  | .lexeme lexeme next => (some (.ok lexeme), next)
  | .failed problem next => (some (.error problem), next)

/-- The cursor behind so many items. -/
def after (cursor : Cursor) : Nat → Cursor
  | 0 => cursor
  | n + 1 => cursor.next.2.after n

def item? (cursor : Cursor) (n : Nat) : Option (Except SyntaxProblem Lexeme) :=
  (cursor.after n).next.1

end Cursor

namespace Lexer

theorem pairIndex?_pos {c : Char} {cs : List Char} (free : startsPair c cs = false) {n : Nat}
    (found : pairIndex? c cs = some n) : 0 < n := by
  match cs with
  | [] => simp [pairIndex?] at found
  | [_] => simp [pairIndex?] at found
  | a :: b :: cs =>
    have apart : ¬(a = c ∧ b = c) := by simpa [startsPair] using free
    rw [pairIndex?, if_neg apart] at found
    obtain ⟨m, _, rfl⟩ := Option.map_eq_some_iff.mp found
    exact Nat.succ_pos m

theorem textLength_pos (c : Char) (cs : List Char) : 0 < textLength (c :: cs) := by
  unfold textLength
  split
  · omega
  · rename_i free
    unfold openerIndex
    cases found : pairIndex? '\x7b' (c :: cs) with
    | none => simp
    | some n => exact pairIndex?_pos (by simpa using free) found

theorem numberLength_pos {c : Char} (digit : c.isDigit = true) (cs : List Char) :
    0 < numberLength (c :: cs) := by
  simp only [numberLength, spanDigits, List.takeWhile_cons, digit, if_true, List.length_cons]
  omega

theorem tagPiece_pos {c : Char} {cs : List Char} {token : Token}
    (found : (tagPiece c cs).found = .ok token) : 0 < (tagPiece c cs).length := by
  unfold tagPiece at found ⊢
  split
  · simp
  · split
    · simp
    · split
      · split
        · simp
        · simp_all
      · split
        · exact numberLength_pos (by assumption) cs
        · split
          · simp
          · simp_all

end Lexer

namespace Cursor

/-- A token takes at least one character. -/
theorem step_shorter {cursor next : Cursor} {lexeme : Lexeme} (stepped : cursor.step = .lexeme lexeme next) :
    next.rest.length < cursor.rest.length := by
  have emitted : ∀ {here : Cursor} {token : Token} {n : Nat} {inTag : Bool}, 0 < n → here.rest ≠ [] →
      here.emit token n inTag = .lexeme lexeme next → next.rest.length < here.rest.length := by
    intro here token n inTag positive nonempty same
    simp only [emit, Step.lexeme.injEq] at same
    obtain ⟨_, rfl⟩ := same
    have := List.length_pos_iff.mpr nonempty
    simp only [advance, List.length_drop]
    omega
  unfold step at stepped
  split at stepped
  · have shorter : cursor.skipBlanks.rest.length ≤ cursor.rest.length := by
      simp [skipBlanks, advance]
    refine Nat.lt_of_lt_of_le ?_ shorter
    unfold stepInTag at stepped
    simp only at stepped
    split at stepped
    · simp at stepped
    · rename_i c cs rest
      split at stepped
      · exact emitted (by omega) (by simp [rest]) stepped
      · split at stepped
        · exact emitted (Lexer.tagPiece_pos (by assumption)) (by simp [rest]) stepped
        · simp at stepped
  · unfold stepInText at stepped
    split at stepped
    · simp at stepped
    · rename_i c cs rest
      split at stepped
      · exact emitted (by omega) (by simp [rest]) stepped
      · exact emitted (Lexer.textLength_pos c cs) (by simp [rest]) stepped

end Cursor

/-- The tokens of a source up to its end or to the first problem. -/
structure Lexemes where
  tokens : List Lexeme
  problem : Option SyntaxProblem

namespace Cursor

def lexemes (cursor : Cursor) : Lexemes :=
  match _stepped : cursor.step with
  | .finished => ⟨[], none⟩
  | .failed problem _ => ⟨[], some problem⟩
  | .lexeme lexeme next =>
    let rest := next.lexemes
    ⟨lexeme :: rest.tokens, rest.problem⟩
termination_by cursor.rest.length
decreasing_by exact step_shorter _stepped

end Cursor

namespace Source

/-- The start of a template, to which one line end at its end does not belong. -/
def start (source : String) : Cursor :=
  { rest := Text.dropLineEnd source.toList }

/-- The start of a part that was cut out of a source, at its place in the whole. -/
def startAt (source : String) (line column : Nat) : Cursor :=
  { position := ⟨line, column, 0⟩, rest := source.toList }

def lexemes (source : String) : Lexemes :=
  (start source).lexemes

/-- What is given to one who asks for the items of a source again and again, also behind a problem. -/
def item? (source : String) (n : Nat) : Option (Except SyntaxProblem Lexeme) :=
  (start source).item? n

end Source

end TextTemplate
