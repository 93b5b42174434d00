import TextTemplate.Toml.Number

/-!
Reading TOML documents. A table is defined once: by its header, by dotted keys or inside braces, and
only a table that was passed on the way to another header may still get its own.
-/
namespace TextTemplate

inductive TableOrigin where
  /-- The table stands in a header of another table. -/
  | passed
  | dotted
  | headed
  deriving DecidableEq, Repr

/-- Entries of a document while it is read. -/
inductive TomlNode where
  | leaf (item : Toml)
  | table (origin : TableOrigin) (entries : List (String × TomlNode))
  /-- The tables of one name that have double brackets, the last one first. -/
  | tables (all : List (List (String × TomlNode)))

namespace TomlNode

mutual

def toml : TomlNode → Toml
  | .leaf item => item
  | .table _ entries => .table (Table.ofList (entryTomls entries)).entries
  | .tables all => .array (tableTomls all).reverse

def entryTomls : List (String × TomlNode) → List (String × Toml)
  | [] => []
  | (name, node) :: entries => (name, toml node) :: entryTomls entries

def tableTomls : List (List (String × TomlNode)) → List Toml
  | [] => []
  | entries :: all => .table (Table.ofList (entryTomls entries)).entries :: tableTomls all

end

/-- Changes the entries of the table at the end of a path; tables on the way are made. Of tables with
double brackets the last one counts. A dotted key cannot lead through a table that has a header, nor
end in a table that it did not make. -/
def update (isDotted : Bool) (change : Fields TomlNode → Option (Fields TomlNode)) :
    List String → Fields TomlNode → Option (Fields TomlNode)
  | [], entries => change entries
  | name :: path, entries =>
    match entries.get? name with
    | none =>
      (update isDotted change path []).map fun inner =>
        entries.insert name (.table (if isDotted then .dotted else .passed) inner)
    | some (.table origin inner) =>
      if isDotted && (origin == .headed || (origin == .passed && path.isEmpty)) then none
      else (update isDotted change path inner).map fun inner => entries.insert name (.table origin inner)
    | some (.tables (last :: others)) =>
      if isDotted && path.isEmpty then none
      else (update isDotted change path last).map fun last => entries.insert name (.tables (last :: others))
    | some (.tables []) | some (.leaf _) => none

def insertNew (name : String) (item : Toml) (entries : Fields TomlNode) : Option (Fields TomlNode) :=
  if (entries.get? name).isSome then none else some (entries.insert name (.leaf item))

/-- The header of a table. -/
def openTable (name : String) (entries : Fields TomlNode) : Option (Fields TomlNode) :=
  match entries.get? name with
  | none => some (entries.insert name (.table .headed []))
  | some (.table .passed inner) => some (entries.insert name (.table .headed inner))
  | some _ => none

/-- The header of one more table of a name. -/
def openNext (name : String) (entries : Fields TomlNode) : Option (Fields TomlNode) :=
  match entries.get? name with
  | none => some (entries.insert name (.tables [[]]))
  | some (.tables all) => some (entries.insert name (.tables ([] :: all)))
  | some _ => none

end TomlNode

namespace Toml

/-- Puts an item at the end of a dotted key inside braces. -/
def insertAt (item : Toml) : List String → List (String × Toml) → Option (List (String × Toml))
  | [], _ => none
  | [name], entries =>
    if (Fields.get? entries name).isSome then none else some (Fields.insert entries name item)
  | name :: path, entries =>
    match Fields.get? entries name with
    | none => (insertAt item path []).map fun inner => Fields.insert entries name (.table inner)
    | some (.table inner) => (insertAt item path inner).map fun inner => Fields.insert entries name (.table inner)
    | some _ => none

mutual

/-- A table inside braces, sorted on every level. -/
def sorted : Toml → Toml
  | .table entries => .table (Table.ofList (sortedEntries entries)).entries
  | item => item

def sortedEntries : List (String × Toml) → List (String × Toml)
  | [] => []
  | (name, item) :: entries => (name, sorted item) :: sortedEntries entries

end

def word (expected : List Char) (item : Toml) (cs : List Char) : Except (List Char) (Toml × List Char) :=
  if expected.isPrefixOf cs then .ok (item, cs.drop expected.length) else .error cs

mutual

/-- An item at the start of a text. -/
def item (fuel : Nat) (cs : List Char) : Except (List Char) (Toml × List Char) :=
  match fuel with
  | 0 => .error cs
  | fuel + 1 =>
    match cs with
    | '"' :: _ | '\'' :: _ => (string cs).map fun (s, rest) => (.text s, rest)
    | '[' :: rest => (arrayItems fuel (skipLines (rest.length + 1) rest)).map fun (items, rest) => (.array items, rest)
    | '\x7b' :: rest =>
      match skipSpace rest with
      | '\x7d' :: rest => .ok (.table [], rest)
      | rest => (inlineEntries fuel [] rest).map fun (entries, rest) => (sorted (.table entries), rest)
    | 't' :: _ => word "true".toList (.bool true) cs
    | 'f' :: _ => word "false".toList (.bool false) cs
    | 'i' :: _ => word "inf".toList (.real (.infinite false)) cs
    | 'n' :: _ => word "nan".toList (.real .nan) cs
    | c :: _ => if c.isDigit || c == '+' || c == '-' then number cs else .error cs
    | [] => .error cs

/-- The items of an array up to its closing bracket. -/
def arrayItems (fuel : Nat) (cs : List Char) : Except (List Char) (List Toml × List Char) :=
  match fuel with
  | 0 => .error cs
  | fuel + 1 =>
    match cs with
    | ']' :: rest => .ok ([], rest)
    | cs => do
      let (first, rest) ← item fuel cs
      match skipLines (rest.length + 1) rest with
      | ',' :: rest => do
        let (others, rest) ← arrayItems fuel (skipLines (rest.length + 1) rest)
        .ok (first :: others, rest)
      | ']' :: rest => .ok ([first], rest)
      | rest => .error rest

/-- The entries of a table inside braces. -/
def inlineEntries (fuel : Nat) (entries : List (String × Toml)) (cs : List Char) :
    Except (List Char) (List (String × Toml) × List Char) :=
  match fuel with
  | 0 => .error cs
  | fuel + 1 => do
    let (path, rest) ← key (skipSpace cs)
    let '=' :: rest := rest | .error rest
    let (value, rest) ← item fuel (skipSpace rest)
    let some entries := insertAt value path entries | .error cs
    match skipSpace rest with
    | ',' :: rest => inlineEntries fuel entries rest
    | '\x7d' :: rest => .ok (entries, rest)
    | rest => .error rest

end

/-- What was read of a document: its entries and the table that the next line belongs to. -/
structure Draft where
  entries : Fields TomlNode := []
  current : List String := []

namespace Draft

/-- A line with a key and an item. -/
def entryLine (draft : Draft) (cs : List Char) : Except (List Char) (Draft × List Char) := do
  let (path, rest) ← key cs
  let '=' :: rest := rest | .error rest
  let start := skipSpace rest
  let (value, rest) ← item (2 * start.length + 2) start
  let rest ← lineEnd rest
  let insert := TomlNode.update true (TomlNode.insertNew (path.getLast?.getD "") value) path.dropLast
  match TomlNode.update false insert draft.current draft.entries with
  | some entries => .ok ({ draft with entries }, rest)
  | none => .error cs

/-- A line with a header. -/
def headerLine (draft : Draft) (cs : List Char) : Except (List Char) (Draft × List Char) := do
  let (isNext, inner) := match cs with
    | '[' :: '[' :: rest => (true, rest)
    | rest => (false, rest.drop 1)
  let (path, rest) ← key (skipSpace inner)
  let rest ← match isNext, rest with
    | true, ']' :: ']' :: rest => .ok rest
    | false, ']' :: rest => .ok rest
    | _, rest => .error rest
  let rest ← lineEnd rest
  let name := path.getLast?.getD ""
  let change := if isNext then TomlNode.openNext name else TomlNode.openTable name
  match TomlNode.update false change path.dropLast draft.entries with
  | some entries => .ok (⟨entries, path⟩, rest)
  | none => .error cs

/-- Reads line by line; a document has no more lines than characters. -/
def lines (fuel : Nat) (draft : Draft) (cs : List Char) : Except (List Char) Draft :=
  match fuel with
  | 0 => .ok draft
  | fuel + 1 =>
    match skipLines (cs.length + 1) cs with
    | [] => .ok draft
    | '[' :: rest => do
      let (draft, rest) ← draft.headerLine ('[' :: rest)
      lines fuel draft rest
    | rest => do
      let (draft, rest) ← draft.entryLine rest
      lines fuel draft rest

end Draft

/-- The entries of a document. -/
def read (text : String) : Except TomlError Toml :=
  let cs := match text.toList with
    | '\uFEFF' :: cs => cs
    | cs => cs
  match Draft.lines (cs.length + 1) {} cs with
  | .ok draft => .ok (TomlNode.table .headed draft.entries).toml
  | .error rest => .error (.ofRest text.toList rest)

end Toml

end TextTemplate
