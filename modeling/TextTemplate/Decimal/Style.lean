import TextTemplate.Decimal.Shortest

/-!
Written forms of doubles: which numbers are written positionally, what follows a whole number, and
how an exponent is signed.
-/
namespace TextTemplate

structure NumberStyle where
  tie : DecimalTie
  /-- Numbers from 10^`positionalFrom` up to below 10^`positionalTo` are written without an
  exponent; `none` means all of them. -/
  positional : Option (Int × Int)
  /-- Written after a positional whole number. -/
  wholeEnd : String
  /-- Written before an exponent that is not negative. -/
  plus : String
  nan : String
  infinity : String

namespace NumberStyle

def zeros (n : Nat) : String :=
  String.ofList (List.replicate n '0')

def splitText (s : String) (n : Nat) : String × String :=
  (String.ofList (s.toList.take n), String.ofList (s.toList.drop n))

def positionalText (style : NumberStyle) (d : Decimal) : String :=
  let digits := d.text
  if 0 ≤ d.exponent then digits ++ zeros d.exponent.toNat ++ style.wholeEnd
  else if 0 < d.top then
    let (whole, fraction) := splitText digits d.top.toNat
    whole ++ "." ++ fraction
  else "0." ++ zeros (-d.top).toNat ++ digits

def exponentText (style : NumberStyle) (d : Decimal) : String :=
  let (first, rest) := splitText d.text 1
  let power := d.top - 1
  let sign := if power < 0 then "-" else style.plus
  first ++ (if rest.isEmpty then "" else "." ++ rest) ++ "e" ++ sign ++ toString power.natAbs

def isPositional (style : NumberStyle) (d : Decimal) : Bool :=
  match style.positional with
  | none => true
  | some (least, most) => decide (least < d.top ∧ d.top ≤ most)

def magnitude (style : NumberStyle) (units : Nat) : String :=
  if units = 0 then "0" ++ style.wholeEnd
  else
    let d := Shortest.decimal style.tie units
    if style.isPositional d then style.positionalText d else style.exponentText d

def write (style : NumberStyle) : Binary64 → String
  | .nan => style.nan
  | .infinite negative => (if negative then "-" else "") ++ style.infinity
  | .finite negative units => (if negative then "-" else "") ++ style.magnitude units

/-- The form in structured listings: positional from 10^-4 to below 10^16, always with a point or
an exponent. -/
def listing : NumberStyle := ⟨.up, some (-4, 16), ".0", "", "NaN", "inf"⟩

/-- The form without exponents; whole numbers have no point. -/
def plain : NumberStyle := ⟨.up, none, "", "", "NaN", "inf"⟩

/-- The form in JSON texts, positional from 10^-5 to below 10^16. JSON has no text for a number
that is none and for an infinite one. -/
def json : NumberStyle := ⟨.even, some (-5, 16), ".0", "+", "null", "null"⟩

end NumberStyle

end TextTemplate
