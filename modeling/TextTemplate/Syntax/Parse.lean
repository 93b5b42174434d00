import TextTemplate.Syntax.Lexer

/-!
Reading a list of tokens. A reader takes tokens from the front and never puts one back, which its
result proves, so that loops over the tokens end. A reader that fails names the problem and the line
on which the last token that was taken ends.
-/
namespace TextTemplate

structure Misread where
  problem : SyntaxProblem
  line : Nat
  deriving DecidableEq, Repr

/-- Tokens that are still to be read, and what was met on the way to them. -/
structure Pending where
  tokens : List Lexeme
  /-- Why the tokens end before the source does. -/
  problem : Option SyntaxProblem
  /-- Span of the last token that was taken. -/
  last : Span
  sections : List String := []
  hasLayout : Bool := false

namespace Pending

def size (pending : Pending) : Nat :=
  pending.tokens.length

/-- What is pending when the first token has been taken. -/
def behind (pending : Pending) (first : Lexeme) (rest : List Lexeme) : Pending :=
  { pending with tokens := rest, last := first.span }

theorem behind_size {pending : Pending} {first : Lexeme} {rest : List Lexeme}
    (front : pending.tokens = first :: rest) : (pending.behind first rest).size < pending.size := by
  simp [behind, size, front]

def misread (pending : Pending) (problem : SyntaxProblem) : Misread :=
  ⟨problem, pending.last.stop.line⟩

/-- The span of the next token, or of the last one where there is none. -/
def span (pending : Pending) : Span :=
  match pending.tokens with
  | first :: _ => first.span
  | [] => pending.last

end Pending

/-- What a reader makes of the tokens in front of `next`. -/
structure Parsed (α : Type) (start : Pending) where
  value : α
  next : Pending
  within : next.size ≤ start.size

def Parse (α : Type) : Type :=
  (start : Pending) → Except Misread (Parsed α start)

namespace Parse

variable {α β : Type}

protected def pure (a : α) : Parse α := fun start =>
  .ok ⟨a, start, Nat.le_refl _⟩

protected def bind (p : Parse α) (f : α → Parse β) : Parse β := fun start =>
  match p start with
  | .error e => .error e
  | .ok r =>
    match f r.value r.next with
    | .error e => .error e
    | .ok q => .ok ⟨q.value, q.next, Nat.le_trans q.within r.within⟩

instance : Monad Parse where
  pure := Parse.pure
  bind := Parse.bind

def fail (problem : SyntaxProblem) : Parse α := fun start =>
  .error (start.misread problem)

/-- The tokens before which a reader stands. -/
def pending : Parse Pending := fun start =>
  .ok ⟨start, start, Nat.le_refl _⟩

/-- The span of the next token. -/
def nextSpan : Parse Span := fun start =>
  .ok ⟨start.span, start, Nat.le_refl _⟩

/-- Ends a span that began at `from` behind the last token that was taken. -/
def spanFrom (first : Span) : Parse Span := fun start =>
  .ok ⟨first.upTo start.last, start, Nat.le_refl _⟩

/-- The next token, which stays; `none` at the end of the source. -/
def peek : Parse (Option Token) := fun start =>
  match start.tokens with
  | first :: _ => .ok ⟨some first.token, start, Nat.le_refl _⟩
  | [] =>
    match start.problem with
    | some problem => .error (start.misread problem)
    | none => .ok ⟨none, start, Nat.le_refl _⟩

/-- What a reader that takes at least one token makes of the tokens. -/
abbrev Progress (α : Type) (start : Pending) : Type :=
  { parsed : Parsed α start // parsed.next.size < start.size }

def takeFirst (expected : String) (start : Pending) : Except Misread (Progress Lexeme start) :=
  match front : start.tokens with
  | first :: rest =>
    have shorter := Pending.behind_size front
    .ok ⟨⟨first, start.behind first rest, Nat.le_of_lt shorter⟩, shorter⟩
  | [] => .error (start.misread (start.problem.getD (.unexpected "end of input" expected)))

/-- Takes the next token, which must have a meaning. -/
def expectFirst (expected : String) (meaning : Token → Option α) (start : Pending) :
    Except Misread (Progress (α × Span) start) :=
  match takeFirst expected start with
  | .error e => .error e
  | .ok ⟨r, shorter⟩ =>
    match meaning r.value.token with
    | some a => .ok ⟨⟨(a, r.value.span), r.next, r.within⟩, shorter⟩
    | none => .error (r.next.misread (.unexpected r.value.token.description expected))

/-- Takes the next token. -/
def take (expected : String) : Parse Lexeme := fun start =>
  (takeFirst expected start).map Subtype.val

def expect (expected : String) (meaning : Token → Option α) : Parse (α × Span) := fun start =>
  (expectFirst expected meaning start).map Subtype.val

def isToken (token other : Token) : Option Unit :=
  if other = token then some () else none

def expectToken (expected : String) (token : Token) : Parse Span :=
  (·.2) <$> expect expected (isToken token)

/-- Takes the next token if it is the given one. -/
def skip (token : Token) : Parse Bool := do
  if (← peek) = some token then
    let _ ← take ""
    return true
  else return false

def noteLayout : Parse Unit := fun start =>
  .ok ⟨(), { start with hasLayout := true }, Nat.le_refl _⟩

def noteSection (name : String) : Parse Unit := fun start =>
  .ok ⟨(), { start with sections := name :: start.sections }, Nat.le_refl _⟩

end Parse

end TextTemplate
