/-!
Places in a source text. Lines count from 1, columns from 0 in characters, offsets from 0 in bytes.
-/
namespace TextTemplate

structure Position where
  line : Nat := 1
  column : Nat := 0
  offset : Nat := 0
  deriving DecidableEq, Repr, Inhabited

namespace Position

/-- The position after a character. -/
def next (p : Position) (c : Char) : Position :=
  if c = '\n' then ⟨p.line + 1, 0, p.offset + c.utf8Size⟩
  else ⟨p.line, p.column + 1, p.offset + c.utf8Size⟩

/-- The position after a text. -/
def after (p : Position) (cs : List Char) : Position :=
  cs.foldl next p

end Position

structure Span where
  start : Position := {}
  stop : Position := {}
  deriving DecidableEq, Repr, Inhabited

namespace Span

/-- From the start of one span to the end of another. -/
def upTo (a b : Span) : Span :=
  ⟨a.start, b.stop⟩

/-- The mark of a span in listings. -/
def mark (s : Span) : String :=
  " @ " ++ toString s.start.line ++ ":" ++ toString s.start.column ++ "-" ++ toString s.stop.line ++ ":"
    ++ toString s.stop.column

end Span

namespace Text

/-- The characters that stand at the byte offsets from `start` up to `stop`; the text begins at `offset`. -/
def sliceFrom (offset start stop : Nat) : List Char → List Char
  | [] => []
  | c :: cs =>
    let rest := sliceFrom (offset + c.utf8Size) start stop cs
    if start ≤ offset ∧ offset < stop then c :: rest else rest

def slice (start stop : Nat) (cs : List Char) : List Char :=
  sliceFrom 0 start stop cs

end Text

end TextTemplate
