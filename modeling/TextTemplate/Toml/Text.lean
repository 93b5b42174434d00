import TextTemplate.Json.Reading
import TextTemplate.Toml.Basic

/-!
Blanks, strings and keys of TOML text. What cannot be read is given by the text that is left.
-/
namespace TextTemplate.Toml

def isSpace (c : Char) : Bool :=
  c == ' ' || c == '\t'

def skipSpace (cs : List Char) : List Char :=
  cs.dropWhile isSpace

/-- Characters of comments and literal strings. -/
def isPlain (c : Char) : Bool :=
  c == '\t' || (0x20 ≤ c.toNat && c.toNat != 0x7F)

def afterNewline? : List Char → Option (List Char)
  | '\n' :: cs => some cs
  | '\r' :: '\n' :: cs => some cs
  | _ => none

def skipComment : List Char → List Char
  | '#' :: cs => cs.dropWhile isPlain
  | cs => cs

/-- Nothing but blanks and a comment may follow in a line. -/
def lineEnd (cs : List Char) : Except (List Char) (List Char) :=
  match skipComment (skipSpace cs) with
  | [] => .ok []
  | rest =>
    match afterNewline? rest with
    | some next => .ok next
    | none => .error rest

/-- Skips blanks, comments and line ends; no more of them than `fuel`. -/
def skipLines (fuel : Nat) (cs : List Char) : List Char :=
  match fuel with
  | 0 => cs
  | fuel + 1 =>
    let rest := skipComment (skipSpace cs)
    match afterNewline? rest with
    | some next => skipLines fuel next
    | none => rest

/-- The character of an escape with a number of hexadecimal digits. -/
def codePoint (width : Nat) (cs : List Char) : Except (List Char) (Char × List Char) :=
  match Json.hexNumber? (cs.take width) with
  | some n => if (cs.take width).length = width ∧ n.isValidChar then .ok (Char.ofNat n, cs.drop width) else .error cs
  | none => .error cs

def escape (cs : List Char) : Except (List Char) (Char × List Char) :=
  match cs with
  | 'b' :: rest => .ok ('\x08', rest)
  | 't' :: rest => .ok ('\t', rest)
  | 'n' :: rest => .ok ('\n', rest)
  | 'f' :: rest => .ok ('\x0c', rest)
  | 'r' :: rest => .ok ('\r', rest)
  | '"' :: rest => .ok ('"', rest)
  | '\\' :: rest => .ok ('\\', rest)
  | 'u' :: rest => codePoint 4 rest
  | 'U' :: rest => codePoint 8 rest
  | _ => .error cs

/-- The rest of a string in double quotes. -/
def basicRest (fuel : Nat) (cs : List Char) : Except (List Char) (List Char × List Char) :=
  match fuel, cs with
  | 0, _ | _, [] => .error cs
  | _ + 1, '"' :: rest => .ok ([], rest)
  | fuel + 1, '\\' :: rest => do
    let (c, rest) ← escape rest
    let (s, rest) ← basicRest fuel rest
    .ok (c :: s, rest)
  | fuel + 1, c :: rest =>
    if isPlain c then do
      let (s, rest) ← basicRest fuel rest
      .ok (c :: s, rest)
    else .error (c :: rest)

/-- The rest of a string in single quotes. -/
def literalRest (cs : List Char) : Except (List Char) (List Char × List Char) :=
  let inside := cs.takeWhile fun c => isPlain c && c != '\''
  match cs.dropWhile fun c => isPlain c && c != '\'' with
  | '\'' :: rest => .ok (inside, rest)
  | rest => .error rest

/-- The end of a string in three quotes: up to two more quotes belong to the string. -/
def closing? (quote : Char) (cs : List Char) : Option (List Char × List Char) :=
  let quotes := cs.takeWhile (· == quote)
  if quotes.length < 3 then none
  else
    let own := min (quotes.length - 3) 2
    some (List.replicate own quote, cs.drop (own + 3))

/-- A backslash at the end of a line, after which all blanks and line ends are left out. -/
def afterBrokenLine? (cs : List Char) : Option (List Char) :=
  (afterNewline? (skipSpace cs)).map fun rest => rest.dropWhile fun c => isSpace c || c == '\n' || c == '\r'

/-- The rest of a string in three double quotes. -/
def longBasicRest (fuel : Nat) (cs : List Char) : Except (List Char) (List Char × List Char) :=
  match fuel, cs with
  | 0, _ | _, [] => .error cs
  | fuel + 1, '\\' :: rest =>
    match afterBrokenLine? rest with
    | some rest => longBasicRest fuel rest
    | none => do
      let (c, rest) ← escape rest
      let (s, rest) ← longBasicRest fuel rest
      .ok (c :: s, rest)
  | fuel + 1, c :: rest =>
    match closing? '"' (c :: rest), afterNewline? (c :: rest) with
    | some ended, _ => .ok ended
    | none, some rest => do
      let (s, rest) ← longBasicRest fuel rest
      .ok ('\n' :: s, rest)
    | none, none =>
      if isPlain c then do
        let (s, rest) ← longBasicRest fuel rest
        .ok (c :: s, rest)
      else .error (c :: rest)

/-- The rest of a string in three single quotes. -/
def longLiteralRest (fuel : Nat) (cs : List Char) : Except (List Char) (List Char × List Char) :=
  match fuel, cs with
  | 0, _ | _, [] => .error cs
  | fuel + 1, c :: rest =>
    match closing? '\'' (c :: rest), afterNewline? (c :: rest) with
    | some ended, _ => .ok ended
    | none, some rest => do
      let (s, rest) ← longLiteralRest fuel rest
      .ok ('\n' :: s, rest)
    | none, none =>
      if isPlain c then do
        let (s, rest) ← longLiteralRest fuel rest
        .ok (c :: s, rest)
      else .error (c :: rest)

/-- A line end right behind three quotes does not count. -/
def dropFirstNewline (cs : List Char) : List Char :=
  (afterNewline? cs).getD cs

/-- A string with its opening quotes. -/
def string (cs : List Char) : Except (List Char) (String × List Char) := do
  let (s, rest) ← match cs with
    | '"' :: '"' :: '"' :: rest => longBasicRest (rest.length + 1) (dropFirstNewline rest)
    | '\'' :: '\'' :: '\'' :: rest => longLiteralRest (rest.length + 1) (dropFirstNewline rest)
    | '"' :: rest => basicRest (rest.length + 1) rest
    | '\'' :: rest => literalRest rest
    | rest => .error rest
  .ok (String.ofList s, rest)

def isKeyChar (c : Char) : Bool :=
  c.isAlphanum || c == '_' || c == '-'

def simpleKey (cs : List Char) : Except (List Char) (String × List Char) :=
  match cs with
  | '"' :: rest => (basicRest (rest.length + 1) rest).map fun (s, rest) => (String.ofList s, rest)
  | '\'' :: rest => (literalRest rest).map fun (s, rest) => (String.ofList s, rest)
  | cs =>
    match cs.takeWhile isKeyChar with
    | [] => .error cs
    | name => .ok (String.ofList name, cs.dropWhile isKeyChar)

/-- Further names of a dotted key. A point that no name follows is left. -/
def moreKeys (fuel : Nat) (cs : List Char) : List String × List Char :=
  match fuel, skipSpace cs with
  | fuel + 1, '.' :: rest =>
    match simpleKey (skipSpace rest) with
    | .ok (name, rest) =>
      let (names, rest) := moreKeys fuel rest
      (name :: names, rest)
    | .error _ => ([], '.' :: rest)
  | _, rest => ([], rest)

/-- A dotted key and the blanks behind it. -/
def key (cs : List Char) : Except (List Char) (List String × List Char) := do
  let (first, rest) ← simpleKey cs
  let (names, rest) := moreKeys rest.length rest
  .ok (first :: names, rest)

end TextTemplate.Toml
