import TextTemplate.Yaml.Cursor

/-!
Scalars of whole lines, written as they stand or folded into paragraphs.
-/
namespace TextTemplate.YamlCursor

/-- What becomes of the line ends behind the last line. -/
inductive Chomping where
  | strip
  | clip
  | keep
  deriving DecidableEq

structure BlockHeader where
  folded : Bool
  chomping : Chomping := .clip
  indent : Option Nat := none

/-- The marks behind the first character of a block scalar. -/
def blockMarks (header : BlockHeader) : List Char → BlockHeader × List Char
  | '-' :: cs => blockMarks { header with chomping := .strip } cs
  | '+' :: cs => blockMarks { header with chomping := .keep } cs
  | c :: cs =>
    if '1' ≤ c ∧ c ≤ '9' then blockMarks { header with indent := some (digitValue c) } cs
    else (header, c :: cs)
  | [] => (header, [])

/-- The rest of the header line must be blank or a comment. -/
def behindHeader? (cs : List Char) : Option (List Char) :=
  let rest := cs.dropWhile fun c => c == ' ' || c == '\t'
  let rest := match rest with
    | '#' :: more => if rest.length < cs.length then more.dropWhile (· != '\n') else rest
    | rest => rest
  match rest with
  | [] => some []
  | '\n' :: more => some more
  | _ => none

def spaces (cs : List Char) : Nat :=
  (cs.takeWhile (· == ' ')).length

/-- The indentation that the first lines suggest. -/
def suggestedIndent (most : Nat) (fuel : Nat) (cs : List Char) : Nat :=
  let n := spaces cs
  match fuel, cs.drop n with
  | fuel + 1, '\n' :: rest => suggestedIndent (max most n) fuel rest
  | _, _ => max most n

/-- A line of a block scalar; a blank one has no text, and the last one may lack its line end. -/
structure BlockLine where
  text : List Char
  ended : Bool

/-- The lines that are indented enough, and what follows them. -/
def blockLines (indent fuel : Nat) (cs : List Char) : List BlockLine × List Char :=
  match fuel, cs with
  | 0, _ | _, [] => ([], cs)
  | fuel + 1, cs =>
    let n := min indent (spaces cs)
    match cs.drop n with
    | [] => ([], [])
    | '\n' :: rest =>
      let (lines, rest) := blockLines indent fuel rest
      (⟨[], true⟩ :: lines, rest)
    | line =>
      if n < indent then ([], cs)
      else
        let text := line.takeWhile (· != '\n')
        match line.dropWhile (· != '\n') with
        | [] => ([⟨text, false⟩], [])
        | rest =>
          let (lines, rest) := blockLines indent fuel (rest.drop 1)
          (⟨text, true⟩ :: lines, rest)

def startsBlank (cs : List Char) : Bool :=
  match cs with
  | ' ' :: _ | '\t' :: _ => true
  | _ => false

def breaks (n : Nat) : List Char :=
  List.replicate n '\n'

/-- The text of lines. `before` is the last line that was not blank, and `blanks` counts the blank
ones since. -/
def blockText (header : BlockHeader) (before : Option BlockLine) (blanks : Nat) : List BlockLine → List Char
  | [] =>
    let ended := (before.map (·.ended)).getD false
    (if ended && header.chomping != .strip then ['\n'] else [])
      ++ (if header.chomping = .keep then breaks blanks else [])
  | line :: lines =>
    if line.text.isEmpty then blockText header before (blanks + 1) lines
    else
      let between := match before with
        | none => breaks blanks
        | some last =>
          if header.folded && !startsBlank last.text && !startsBlank line.text then
            if blanks = 0 then [' '] else breaks blanks
          else breaks (blanks + 1)
      between ++ line.text ++ blockText header (some line) 0 lines

/-- A block scalar inside of what starts its lines before column `low`. -/
def blockScalar? (low : Nat) (cursor : YamlCursor) : Option (String × YamlCursor) := do
  let (header, rest) := blockMarks { folded := cursor.rest.head? == some '>' } (cursor.rest.drop 1)
  let body ← behindHeader? rest
  let indent := match header.indent with
    | some n => low - 1 + n
    | none => max (max low 1) (suggestedIndent 0 body.length body)
  let (lines, rest) := blockLines indent (body.length + 1) body
  some (String.ofList (blockText header none 0 lines), { cursor with column := 0, rest, fresh := true })

end TextTemplate.YamlCursor
