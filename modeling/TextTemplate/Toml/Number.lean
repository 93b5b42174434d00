import TextTemplate.Toml.Text

/-!
Numbers and moments of TOML text. Digits may be grouped by single underscores between them.
-/
namespace TextTemplate.Toml

/-- Digits with the underscores between them left out. -/
def digitGroups (isDigit : Char → Bool) : List Char → List Char × List Char
  | [] => ([], [])
  | '_' :: c :: cs =>
    if isDigit c then
      let (digits, rest) := digitGroups isDigit cs
      (c :: digits, rest)
    else ([], '_' :: c :: cs)
  | c :: cs =>
    if isDigit c then
      let (digits, rest) := digitGroups isDigit cs
      (c :: digits, rest)
    else ([], c :: cs)

/-- At least one digit, then groups of digits. -/
def digits (isDigit : Char → Bool) (cs : List Char) : Except (List Char) (List Char × List Char) :=
  if (cs.head?.map isDigit).getD false then
    match digitGroups isDigit cs with
    | (_, '_' :: rest) => .error ('_' :: rest)
    | read => .ok read
  else .error cs

/-- Decimal digits without a zero in front. -/
def wholeDigits (cs : List Char) : Except (List Char) (List Char × List Char) :=
  match cs with
  | '0' :: rest => .ok (['0'], rest)
  | cs => digits Char.isDigit cs

def fraction (cs : List Char) : Except (List Char) (List Char × List Char) :=
  match cs with
  | '.' :: rest => digits Char.isDigit rest
  | rest => .ok ([], rest)

def sign : List Char → Bool × List Char
  | '-' :: cs => (true, cs)
  | '+' :: cs => (false, cs)
  | cs => (false, cs)

def power (cs : List Char) : Except (List Char) (Option Int × List Char) :=
  match cs with
  | 'e' :: rest | 'E' :: rest => do
    let (negative, rest) := sign rest
    let (ds, rest) ← digits Char.isDigit rest
    .ok (some (if negative then -(natOfDigits ds : Int) else natOfDigits ds), rest)
  | rest => .ok (none, rest)

/-- Numbers beyond the largest double are refused, except below zero. -/
def realWithin? (x : Binary64) : Option Toml :=
  if x = .infinite false then none else some (.real x)

def integerWithin? (i : Int) : Option Toml :=
  if integerMin ≤ i ∧ i ≤ integerMax then some (.integer i) else none

def orStop (start rest : List Char) : Option Toml → Except (List Char) (Toml × List Char)
  | some item => .ok (item, rest)
  | none => .error start

def isDigitBelow (base : Nat) (c : Char) : Bool :=
  match Json.hexValue? c with
  | some n => decide (n < base)
  | none => false

/-- A whole number in another base, after its mark. -/
def basedInteger (base : Nat) (start cs : List Char) : Except (List Char) (Toml × List Char) := do
  let (ds, rest) ← digits (isDigitBelow base) cs
  orStop start rest (integerWithin? (ds.foldl (fun n c => base * n + (Json.hexValue? c).getD 0) 0 : Nat))

def decimal (cs : List Char) : Except (List Char) (Toml × List Char) := do
  let (negative, rest) := sign cs
  match rest with
  | 'i' :: 'n' :: 'f' :: rest => .ok (.real (.infinite negative), rest)
  | 'n' :: 'a' :: 'n' :: rest => .ok (.real .nan, rest)
  | rest =>
    let (whole, rest) ← wholeDigits rest
    let (part, rest) ← fraction rest
    let (exponent, rest) ← power rest
    if part.isEmpty && exponent.isNone then
      let n : Int := natOfDigits whole
      orStop cs rest (integerWithin? (if negative then -n else n))
    else
      let d : Decimal := ⟨natOfDigits (whole ++ part), exponent.getD 0 - part.length⟩
      orStop cs rest (realWithin? (d.toBinary64 negative))

/-- A fixed number of decimal digits with a value in a range. -/
def field? (width low high : Nat) (cs : List Char) : Option (Nat × List Char) :=
  let ds := cs.take width
  let n := natOfDigits ds
  if ds.length = width ∧ ds.all Char.isDigit ∧ low ≤ n ∧ n ≤ high then some (n, cs.drop width) else none

def daysIn (year month : Nat) : Nat :=
  if month = 2 then if year % 4 = 0 ∧ (year % 100 ≠ 0 ∨ year % 400 = 0) then 29 else 28
  else if month = 4 ∨ month = 6 ∨ month = 9 ∨ month = 11 then 30
  else 31

def padded (width n : Nat) : String :=
  let s := toString n
  String.ofList (List.replicate (width - s.length) '0') ++ s

/-- A fraction of a second is kept to nanoseconds, without zeros behind it. -/
def secondFraction (ds : List Char) : String :=
  let kept := ((ds.take 9).reverse.dropWhile (· == '0')).reverse
  if kept.isEmpty then "" else "." ++ String.ofList kept

def startsDate (cs : List Char) : Bool :=
  (field? 4 0 9999 cs).any fun (_, rest) => rest.head? == some '-'

def startsTime (cs : List Char) : Bool :=
  (field? 2 0 99 cs).any fun (_, rest) => rest.head? == some ':'

def date (cs : List Char) : Option (String × List Char) := do
  let (year, rest) ← field? 4 0 9999 cs
  let '-' :: rest := rest | none
  let (month, rest) ← field? 2 1 12 rest
  let '-' :: rest := rest | none
  let (day, rest) ← field? 2 1 (daysIn year month) rest
  some (padded 4 year ++ "-" ++ padded 2 month ++ "-" ++ padded 2 day, rest)

def time (cs : List Char) : Option (String × List Char) := do
  let (hour, rest) ← field? 2 0 23 cs
  let ':' :: rest := rest | none
  let (minute, rest) ← field? 2 0 59 rest
  let ':' :: rest := rest | none
  let (second, rest) ← field? 2 0 60 rest
  let (part, rest) := match rest with
    | '.' :: c :: more => if c.isDigit then spanDigits (c :: more) else ([], '.' :: c :: more)
    | rest => ([], rest)
  some (padded 2 hour ++ ":" ++ padded 2 minute ++ ":" ++ padded 2 second ++ secondFraction part, rest)

/-- The distance from universal time; a distance of nothing is not negative. -/
def offset (cs : List Char) : Option (String × List Char) :=
  match cs with
  | 'Z' :: rest | 'z' :: rest => some ("Z", rest)
  | c :: rest =>
    if c = '+' ∨ c = '-' then do
      let (hour, rest) ← field? 2 0 23 rest
      let ':' :: rest := rest | none
      let (minute, rest) ← field? 2 0 59 rest
      let mark := if c = '-' ∧ hour + minute ≠ 0 then "-" else "+"
      some (mark ++ padded 2 hour ++ ":" ++ padded 2 minute, rest)
    else some ("", cs)
  | [] => some ("", [])

/-- A date with the time behind it, if there is one. -/
def dateTime? (cs : List Char) : Option (Toml × List Char) := do
  let (day, rest) ← date cs
  let after := match rest with
    | c :: more => if (c = 'T' ∨ c = 't' ∨ c = ' ') ∧ startsTime more then some more else none
    | [] => none
  match after with
  | none => some (.moment day, rest)
  | some more =>
    let (hours, rest) ← time more
    let (zone, rest) ← offset rest
    some (.moment (day ++ "T" ++ hours ++ zone), rest)

def moment? (cs : List Char) : Option (Toml × List Char) :=
  if startsDate cs then dateTime? cs else (time cs).map fun (hours, rest) => (.moment hours, rest)

def number (cs : List Char) : Except (List Char) (Toml × List Char) :=
  if startsDate cs || startsTime cs then
    match moment? cs with
    | some read => .ok read
    | none => .error cs
  else
    match cs with
    | '0' :: 'x' :: rest => basedInteger 16 cs rest
    | '0' :: 'o' :: rest => basedInteger 8 cs rest
    | '0' :: 'b' :: rest => basedInteger 2 cs rest
    | cs => decimal cs

end TextTemplate.Toml
