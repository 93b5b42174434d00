import TextTemplate.Yaml.BlockScalar

/-!
Reading a YAML document: block collections by the column they stand at, flow collections by their
brackets. A text with more than one document is refused, and so is a map with two equal keys.
-/
namespace TextTemplate.Yaml

open YamlCursor (Properties hasMark endsWord)

/-- Whether a node is the key of an entry: it stands in one line with the colon behind it. -/
def isKey (start behind : YamlCursor) : Bool :=
  let read := start.rest.take (start.rest.length - behind.rest.length)
  !read.contains '\n' && hasMark ':' (behind.rest.dropWhile fun c => c == ' ' || c == '\t')

def scalarNode? (found : Properties) (plain : Bool) (s : String) (behind : YamlCursor) : Option (Yaml × YamlCursor) :=
  (scalar? found.tag s plain).map (behind.bind found)

def quotedNode? (found : Properties) (cursor : YamlCursor) : Option (Yaml × YamlCursor) := do
  let (s, rest) ← quoted? cursor.rest
  scalarNode? found false s (cursor.goTo rest)

/-- A node that is not there. -/
def emptyNode? (found : Properties) (cursor : YamlCursor) : Option (Yaml × YamlCursor) :=
  scalarNode? found true "" cursor

mutual

/-- A node inside brackets. -/
def flowNode (fuel : Nat) (cursor : YamlCursor) : Option (Yaml × YamlCursor) :=
  match fuel with
  | 0 => none
  | fuel + 1 =>
    let (found, cursor) := cursor.properties 2 {}
    let cursor := cursor.inFlow
    match cursor.rest with
    | '[' :: _ => do
      let (items, behind) ← flowItems fuel (cursor.behindMark false).inFlow
      some (behind.bind found (container found.tag (.seq items)))
    | '\x7b' :: _ => do
      let (entries, behind) ← flowEntries fuel [] (cursor.behindMark false).inFlow
      some (behind.bind found (container found.tag (.map entries)))
    | '"' :: _ | '\'' :: _ => quotedNode? found cursor
    | '*' :: _ => cursor.alias?
    | rest =>
      if YamlCursor.startsPlain true rest then
        let (s, behind) := cursor.plain true 0
        scalarNode? found true s behind
      else if found.isEmpty then none
      else emptyNode? found cursor

/-- The value of an entry inside brackets, which may be missing. -/
def flowValue (fuel : Nat) (cursor : YamlCursor) : Option (Yaml × YamlCursor) :=
  match fuel with
  | 0 => none
  | fuel + 1 =>
    match cursor.rest with
    | ',' :: _ | ']' :: _ | '\x7d' :: _ => some (.null, cursor)
    | _ => flowNode fuel cursor

/-- A key inside brackets, which may be missing, and whether a colon follows. -/
def flowKey (fuel : Nat) (cursor : YamlCursor) : Option (Yaml × Bool × YamlCursor) :=
  match fuel with
  | 0 => none
  | fuel + 1 => do
    let isExplicit := hasMark '?' cursor.rest
    let cursor := if isExplicit then (cursor.behindMark false).inFlow else cursor
    let (key, behind) ← if cursor.rest.head? == some ':' then some (.null, cursor) else flowNode fuel cursor
    let behind := behind.inFlow
    some (key, isExplicit || behind.rest.head? == some ':', behind)

/-- An entry inside brackets after its key. -/
def flowEntryValue (fuel : Nat) (cursor : YamlCursor) : Option (Yaml × YamlCursor) :=
  match fuel with
  | 0 => none
  | fuel + 1 =>
    if cursor.rest.head? == some ':' then flowValue fuel (cursor.behindMark false).inFlow else some (.null, cursor)

def flowItems (fuel : Nat) (cursor : YamlCursor) : Option (List Yaml × YamlCursor) :=
  match fuel with
  | 0 => none
  | fuel + 1 =>
    if cursor.rest.head? == some ']' then some ([], cursor.behindMark false)
    else do
      let (key, isEntry, behind) ← flowKey fuel cursor
      let (content, behind) ← if isEntry then flowEntryValue fuel behind else some (.null, behind)
      let item := if isEntry then .map [(key, content)] else key
      let behind := behind.inFlow
      match behind.rest with
      | ',' :: _ => do
        let (items, last) ← flowItems fuel (behind.behindMark false).inFlow
        some (item :: items, last)
      | ']' :: _ => some ([item], behind.behindMark false)
      | _ => none

def flowEntries (fuel : Nat) (entries : List (Yaml × Yaml)) (cursor : YamlCursor) :
    Option (List (Yaml × Yaml) × YamlCursor) :=
  match fuel with
  | 0 => none
  | fuel + 1 =>
    if cursor.rest.head? == some '\x7d' then some (entries, cursor.behindMark false)
    else do
      let (key, _, behind) ← flowKey fuel cursor
      let (content, behind) ← flowEntryValue fuel behind
      let entries ← addEntry? entries key content
      let behind := behind.inFlow
      match behind.rest with
      | ',' :: _ => flowEntries fuel entries (behind.behindMark false).inFlow
      | '\x7d' :: _ => some (entries, behind.behindMark false)
      | _ => none

end

/-- A node that fits in one line, up to where it may be a key: everything but block collections and
block scalars. -/
def atom (fuel : Nat) (found : Properties) (cursor : YamlCursor) : Option (Yaml × YamlCursor) :=
  match cursor.rest with
  | '"' :: _ | '\'' :: _ => quotedNode? found cursor
  | '*' :: _ => cursor.alias?
  | '[' :: _ | '\x7b' :: _ => do
    let (node, behind) ← flowNode fuel cursor
    some (behind.bind found (container found.tag node))
  | rest =>
    if YamlCursor.startsPlain false rest then
      let (run, rest) := YamlCursor.plainRun false true rest
      scalarNode? found true (String.ofList (YamlCursor.trimEnd run)) (cursor.goTo rest)
    else none

mutual

/-- A node at column `low` or beyond; the marks of a sequence may stand at column `dashLow`. -/
def block (fuel low dashLow : Nat) (cursor : YamlCursor) : Option (Yaml × YamlCursor) :=
  match fuel with
  | 0 => none
  | fuel + 1 =>
    let start := cursor.toToken
    let isOutside (place : YamlCursor) : Bool :=
      place.atEnd ||
        (place.fresh && place.column < low && !(hasMark '-' place.rest && dashLow ≤ place.column))
    if isOutside start then some (.null, start)
    else
      let (found, behind) := start.properties 2 {}
      if found.isEmpty then content fuel low {} start start
      else
        let behind := { behind with fresh := start.fresh }
        if endsWord behind.rest then
          let next := { behind with fresh := false }.toToken
          if isOutside next then emptyNode? found next else content fuel low found next next
        else content fuel low found start behind

/-- What a node holds behind its properties; a key starts at `start`, in front of them. -/
def content (fuel low : Nat) (found : Properties) (start cursor : YamlCursor) : Option (Yaml × YamlCursor) :=
  match fuel with
  | 0 => none
  | fuel + 1 =>
    if hasMark '-' cursor.rest then
      if cursor.fresh then do
        let (items, behind) ← sequence fuel cursor.column cursor
        some (behind.bind found (container found.tag (.seq items)))
      else none
    else if hasMark '?' cursor.rest || hasMark ':' cursor.rest then
      if cursor.fresh then do
        let (entries, behind) ← mapping fuel cursor.column [] cursor
        some (behind.bind found (container found.tag (.map entries)))
      else none
    else if cursor.rest.head? == some '|' || cursor.rest.head? == some '>' then do
      let (s, behind) ← cursor.blockScalar? low
      scalarNode? found false s behind
    else do
      let (node, behind) ← atom (2 * cursor.rest.length + 2) found cursor
      if isKey cursor behind then
        if cursor.fresh then do
          let (entries, behind) ← mapping fuel start.column [] start
          let onKey := start.rest.length != cursor.rest.length
          if onKey then some (.map entries, behind)
          else some (behind.bind found (container found.tag (.map entries)))
        else none
      else if YamlCursor.startsPlain false cursor.rest then
        let (s, behind) := cursor.plain false low
        scalarNode? found true s behind
      else some (node, behind)

/-- The items of a sequence whose marks stand at a column. -/
def sequence (fuel column : Nat) (cursor : YamlCursor) : Option (List Yaml × YamlCursor) :=
  match fuel with
  | 0 => none
  | fuel + 1 => do
    let (item, behind) ← block fuel (column + 1) (column + 1) (cursor.behindMark true)
    let next := behind.toToken
    if next.atEnd then some ([item], next)
    else if !next.fresh || column < next.column then none
    else if next.column = column && hasMark '-' next.rest then do
      let (items, last) ← sequence fuel column next
      some (item :: items, last)
    else some ([item], next)

/-- The key of an entry and the place of its colon, if it has one. -/
def entryKey (fuel column : Nat) (cursor : YamlCursor) : Option (Yaml × Bool × YamlCursor) :=
  match fuel with
  | 0 => none
  | fuel + 1 =>
    if hasMark '?' cursor.rest then do
      let (key, behind) ← block fuel (column + 1) (column + 1) (cursor.behindMark true)
      let next := behind.toToken
      some (key, next.fresh && next.column = column && hasMark ':' next.rest, { next with fresh := true })
    else if hasMark ':' cursor.rest then some (.null, true, { cursor with fresh := false })
    else do
      let (found, behind) := cursor.properties 2 {}
      let (key, behind) ← atom (2 * behind.rest.length + 2) found behind
      let colon := behind.goTo (behind.rest.dropWhile fun c => c == ' ' || c == '\t')
      if isKey cursor behind then some (key, true, colon) else none

/-- The entries of a map whose keys stand at a column. -/
def mapping (fuel column : Nat) (entries : List (Yaml × Yaml)) (cursor : YamlCursor) :
    Option (List (Yaml × Yaml) × YamlCursor) :=
  match fuel with
  | 0 => none
  | fuel + 1 => do
    let (key, hasValue, place) ← entryKey fuel column cursor
    let (content, behind) ←
      if hasValue then block fuel (column + 1) column (place.behindMark place.fresh) else some (.null, place)
    let entries ← addEntry? entries key content
    let next := behind.toToken
    if next.atEnd || (next.fresh && next.column < column) then some (entries, next)
    else if next.fresh && next.column = column then mapping fuel column entries next
    else none

end

/-- Line ends of all kinds as line feeds. -/
def plainLineEnds : List Char → List Char
  | [] => []
  | '\r' :: '\n' :: cs => '\n' :: plainLineEnds cs
  | '\r' :: cs => '\n' :: plainLineEnds cs
  | c :: cs => c :: plainLineEnds cs

/-- Skips the lines of directives. -/
def skipDirectives (fuel : Nat) (cursor : YamlCursor) : YamlCursor :=
  match fuel, cursor.toToken.rest with
  | fuel + 1, '%' :: rest => skipDirectives fuel ⟨0, rest.dropWhile (· != '\n'), true, []⟩
  | _, _ => cursor.toToken

/-- Skips the lines that end a document. -/
def skipEnds (fuel : Nat) (cursor : YamlCursor) : YamlCursor :=
  match fuel, cursor.toToken.isDocumentEnd, cursor.toToken.rest with
  | fuel + 1, true, '.' :: rest => skipEnds fuel ⟨3, rest.drop 2, false, []⟩
  | _, _, _ => cursor.toToken

def read? (text : String) : Option Yaml := do
  let cs := plainLineEnds (match text.toList with
    | '\uFEFF' :: cs => cs
    | cs => cs)
  let first := skipDirectives cs.length (.start cs)
  let first := match first.isDocumentEnd, first.rest with
    | true, '-' :: rest => { first with column := 3, rest := rest.drop 2, fresh := false }
    | _, _ => first
  let (node, behind) ← block (4 * cs.length + 4) 0 0 first
  if (skipEnds cs.length behind).rest.isEmpty then some node else none

end TextTemplate.Yaml
