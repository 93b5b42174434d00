import TextTemplate.Decimal.Shortest

/-!
Reading numbers from text: counts and 64-bit integers with an optional sign, and decimals with an
optional fraction and exponent, which become the nearest double.
-/
namespace TextTemplate

def digitValue (c : Char) : Nat :=
  c.toNat - '0'.toNat

def natOfDigits (cs : List Char) : Nat :=
  cs.foldl (fun n c => 10 * n + digitValue c) 0

/-- The digits that start a text, and what follows them. -/
def spanDigits (cs : List Char) : List Char × List Char :=
  (cs.takeWhile Char.isDigit, cs.dropWhile Char.isDigit)

def integerMin : Int := -Int.pow 2 63

def integerMax : Int := Int.pow 2 63 - 1

def countMax : Nat := Nat.pow 2 64 - 1

/-- Nonempty text of digits alone. -/
def digitsOnly? (cs : List Char) : Option Nat :=
  if !cs.isEmpty && cs.all Char.isDigit then some (natOfDigits cs) else none

/-- A count of at most 64 bits; a plus sign may stand before it. -/
def readCount? (s : String) : Option Nat := do
  let n ← digitsOnly? (match s.toList with | '+' :: cs => cs | cs => cs)
  if n ≤ countMax then some n else none

/-- A 64-bit integer; a sign may stand before it. -/
def readInteger? (s : String) : Option Int := do
  let i ← match s.toList with
    | '+' :: cs => (digitsOnly? cs).map Int.ofNat
    | '-' :: cs => (digitsOnly? cs).map fun n => -(n : Int)
    | cs => (digitsOnly? cs).map Int.ofNat
  if integerMin ≤ i ∧ i ≤ integerMax then some i else none

namespace Decimal

/-- The nearest number of a grid. Decimals far outside every grid are not computed. -/
def toBinary64On (grid : BinaryGrid) (negative : Bool) (d : Decimal) : Binary64 :=
  if d.digits = 0 ∨ d.top < -400 then .finite negative 0
  else if 400 < d.top then .infinite negative
  else if 0 ≤ d.exponent then .ofQuotientOn grid negative (d.digits * Nat.pow 10 d.exponent.toNat) 1
  else .ofQuotientOn grid negative d.digits (Nat.pow 10 (-d.exponent).toNat)

def toBinary64 (negative : Bool) (d : Decimal) : Binary64 :=
  d.toBinary64On .double negative

/-- The power of ten after an `e`, if the text is one. -/
def readExponent? (cs : List Char) : Option Int :=
  match cs with
  | '+' :: ds => (digitsOnly? ds).map Int.ofNat
  | '-' :: ds => (digitsOnly? ds).map fun n => -(n : Int)
  | ds => (digitsOnly? ds).map Int.ofNat

/-- Digits, a fraction and an exponent; one digit must stand before the exponent. -/
def read? (cs : List Char) : Option Decimal := do
  let (whole, rest) := spanDigits cs
  let (fraction, rest) := match rest with
    | '.' :: rest => spanDigits rest
    | rest => ([], rest)
  if whole.isEmpty && fraction.isEmpty then none
  let power ← match rest with
    | [] => some 0
    | 'e' :: rest | 'E' :: rest => readExponent? rest
    | _ => none
  some ⟨natOfDigits (whole ++ fraction), power - fraction.length⟩

end Decimal

namespace Binary64

def readMagnitudeOn? (grid : BinaryGrid) (negative : Bool) (cs : List Char) : Option Binary64 :=
  match String.ofList (cs.map Char.toLower) with
  | "nan" => some .nan
  | "inf" | "infinity" => some (.infinite negative)
  | _ => (Decimal.read? cs).map (·.toBinary64On grid negative)

def readOn? (grid : BinaryGrid) (s : String) : Option Binary64 :=
  match s.toList with
  | '-' :: cs => readMagnitudeOn? grid true cs
  | '+' :: cs => readMagnitudeOn? grid false cs
  | cs => readMagnitudeOn? grid false cs

/-- A decimal, an infinity or the number that is none, with an optional sign. -/
def read? (s : String) : Option Binary64 :=
  readOn? .double s

end Binary64

end TextTemplate
