import TextTemplate.Yaml.Scalar

/-!
Places in YAML text: the column that indentation is measured by, the anchors that were set before,
and whether a block collection may start, which is so where nothing but blanks and marks of outer
collections precede in the line.
-/
namespace TextTemplate

structure YamlCursor where
  column : Nat
  rest : List Char
  fresh : Bool
  anchors : List (String × Yaml)

namespace YamlCursor

def start (text : List Char) : YamlCursor :=
  ⟨0, text, true, []⟩

/-- Skips blanks, comments and line ends up to the next token. Tabs do not count as indentation. -/
def skipFrom (inComment fresh : Bool) (column : Nat) : List Char → Nat × List Char × Bool
  | [] => (column, [], fresh)
  | '\n' :: cs => skipFrom false true 0 cs
  | c :: cs =>
    if inComment then skipFrom true fresh (column + 1) cs
    else if c = ' ' ∨ (c = '\t' ∧ fresh = false) then skipFrom false fresh (column + 1) cs
    else if c = '#' then skipFrom true fresh (column + 1) cs
    else (column, c :: cs, fresh)

def toToken (cursor : YamlCursor) : YamlCursor :=
  let (column, rest, fresh) := skipFrom false cursor.fresh cursor.column cursor.rest
  { cursor with column, rest, fresh }

/-- Skips blanks, comments and line ends inside brackets. -/
def inFlow (cursor : YamlCursor) : YamlCursor :=
  let cursor := { cursor with fresh := false }.toToken
  match cursor.rest with
  | '\t' :: _ => { { cursor with fresh := false }.toToken with fresh := false }
  | _ => { cursor with fresh := false }

/-- Goes on to the rest of a text that was read. -/
def goTo (cursor : YamlCursor) (rest : List Char) : YamlCursor :=
  let read := cursor.rest.take (cursor.rest.length - rest.length)
  let column := read.foldl (fun column c => if c = '\n' then 0 else column + 1) cursor.column
  { cursor with column, rest, fresh := false }

/-- Goes on behind one character; a block collection may follow the mark of another one. -/
def behindMark (cursor : YamlCursor) (fresh : Bool) : YamlCursor :=
  { cursor.goTo (cursor.rest.drop 1) with fresh }

/-- Whether a blank, a line end or the end of the text is next. -/
def endsWord (cs : List Char) : Bool :=
  match cs with
  | [] | ' ' :: _ | '\t' :: _ | '\n' :: _ => true
  | _ => false

def hasMark (mark : Char) (cs : List Char) : Bool :=
  match cs with
  | c :: cs => c == mark && endsWord cs
  | [] => false

/-- A line of three hyphens or points ends a document. -/
def isDocumentEnd (cursor : YamlCursor) : Bool :=
  match cursor.column, cursor.rest with
  | 0, '-' :: '-' :: '-' :: rest | 0, '.' :: '.' :: '.' :: rest => endsWord rest
  | _, _ => false

def atEnd (cursor : YamlCursor) : Bool :=
  cursor.rest.isEmpty || cursor.isDocumentEnd

def isFlowMark (c : Char) : Bool :=
  c == ',' || c == '[' || c == ']' || c == '\x7b' || c == '\x7d'

/-- The part of a plain scalar in one line. -/
def plainRun (inFlow afterBlank : Bool) : List Char → List Char × List Char
  | [] => ([], [])
  | c :: cs =>
    if c == '\n' || (c == '#' && afterBlank) || (c == ':' && endsWord cs) || (inFlow && isFlowMark c) then ([], c :: cs)
    else
      let (run, rest) := plainRun inFlow (c == ' ' || c == '\t') cs
      (c :: run, rest)

def trimEnd (cs : List Char) : List Char :=
  (cs.reverse.dropWhile fun c => c == ' ' || c == '\t').reverse

/-- The number of line ends, the column and the text behind them. -/
def lineBreaks (n column : Nat) : List Char → Nat × Nat × List Char
  | '\n' :: cs => lineBreaks (n + 1) 0 cs
  | ' ' :: cs => lineBreaks n (column + 1) cs
  | '\t' :: cs => lineBreaks n (column + 1) cs
  | cs => (n, column, cs)

/-- The further lines of a plain scalar, which outside brackets stand at column `low` or beyond. -/
def plainMore (fuel : Nat) (inFlow : Bool) (low : Nat) (cursor : YamlCursor) : List Char × YamlCursor :=
  match fuel, cursor.rest with
  | fuel + 1, '\n' :: _ =>
    let (n, column, rest) := lineBreaks 0 cursor.column cursor.rest
    let next := { cursor with column, rest, fresh := false }
    if next.atEnd || (!inFlow && column < low) || rest.head? == some '#' then ([], cursor)
    else
      match plainRun inFlow true rest with
      | ([], _) => ([], cursor)
      | (run, rest) =>
        let (more, last) := plainMore fuel inFlow low (next.goTo rest)
        (Yaml.foldedBreaks n ++ trimEnd run ++ more, last)
  | _, _ => ([], cursor)

def plain (inFlow : Bool) (low : Nat) (cursor : YamlCursor) : String × YamlCursor :=
  let (run, rest) := plainRun inFlow true cursor.rest
  let (more, last) := plainMore cursor.rest.length inFlow low (cursor.goTo rest)
  (String.ofList (trimEnd run ++ more), last)

/-- Whether a plain scalar may start. -/
def startsPlain (inFlow : Bool) (cs : List Char) : Bool :=
  match cs with
  | [] => false
  | c :: rest =>
    if c == '-' then !endsWord rest
    else if c == '?' || c == ':' then !inFlow && !endsWord rest
    else !(endsWord cs || isFlowMark c || ['#', '&', '*', '!', '|', '>', '\'', '"', '%', '@', Char.ofNat 96].contains c)

/-- What stands in front of a node. -/
structure Properties where
  anchor : Option String := none
  tag : Option String := none

def isNameChar (c : Char) : Bool :=
  !(c == ' ' || c == '\t' || c == '\n' || isFlowMark c)

/-- The full form of a tag. -/
def tagOf (cs : List Char) : String :=
  match cs with
  | '!' :: '!' :: name => coreTagOf name
  | '!' :: '<' :: name => String.ofList name.dropLast
  | name => String.ofList name
where
  coreTagOf (name : List Char) : String := Yaml.coreTag (String.ofList name)

/-- The properties of a node and the place behind them in their line. -/
def properties (fuel : Nat) (found : Properties) (cursor : YamlCursor) : Properties × YamlCursor :=
  let behind (rest : List Char) : YamlCursor :=
    cursor.goTo (rest.dropWhile fun c => c == ' ' || c == '\t')
  match fuel, cursor.rest with
  | fuel + 1, '&' :: rest =>
    properties fuel { found with anchor := some (String.ofList (rest.takeWhile isNameChar)) }
      (behind (rest.dropWhile isNameChar))
  | fuel + 1, '!' :: rest =>
    properties fuel { found with tag := some (tagOf ('!' :: rest.takeWhile isNameChar)) }
      (behind (rest.dropWhile isNameChar))
  | _, _ => (found, cursor)

def Properties.isEmpty (found : Properties) : Bool :=
  found.anchor.isNone && found.tag.isNone

/-- Sets the anchor of a node. -/
def bind (cursor : YamlCursor) (found : Properties) (node : Yaml) : Yaml × YamlCursor :=
  match found.anchor with
  | some name => (node, { cursor with anchors := (name, node) :: cursor.anchors })
  | none => (node, cursor)

/-- The node that an alias stands for. -/
def alias? (cursor : YamlCursor) : Option (Yaml × YamlCursor) :=
  let name := (cursor.rest.drop 1).takeWhile isNameChar
  (cursor.anchors.lookup (String.ofList name)).map fun node => (node, cursor.goTo (cursor.rest.drop (name.length + 1)))

end YamlCursor

end TextTemplate
