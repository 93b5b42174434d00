import TextTemplate.Decimal.Reading

/-!
Decimals read in two steps: the digits as far as they fit 64 bits become a double, which is then
scaled by a power of ten that is a double as well. Each step rounds, so a long decimal may end up
beside the nearest double.
-/
namespace TextTemplate.Stepwise

/-- Adds digits to a number while it fits 64 bits. -/
def fitting (n : Nat) : List Char → Nat × List Char
  | [] => (n, [])
  | c :: cs => if 10 * n + digitValue c ≤ countMax then fitting (10 * n + digitValue c) cs else (n, c :: cs)

/-- The digits of a decimal with the power of ten that scales them. Digits left of the point that do
not fit count in the power, and those right of it are dropped. -/
def ofDigits (whole fraction : List Char) (power : Int) : Decimal :=
  let (n, unread) := fitting 0 whole
  let (digits, dropped) := fitting n fraction
  ⟨digits, power + unread.length - ((fraction.length - dropped.length : Nat) : Int)⟩

/-- The powers of ten that are doubles go up to this one. -/
def topPower : Nat := 308

def powerUnits (power : Nat) : Nat :=
  BinaryGrid.double.round (Nat.pow 10 power) 1

/-- Divides a number of units by a power of ten, in several steps if it is beyond the doubles. -/
def scaleDown (units power : Nat) : Nat :=
  if power ≤ topPower then BinaryGrid.double.round units (powerUnits power)
  else if units = 0 then 0
  else scaleDown (BinaryGrid.double.round units (powerUnits topPower)) (power - topPower)
termination_by power
decreasing_by simp only [topPower] at *; omega

/-- Multiplies a number of units by a power of ten; `none` beyond the doubles. -/
def scaleUp? (units power : Nat) : Option Nat :=
  if units = 0 then some 0
  else if topPower < power then none
  else
    let product := BinaryGrid.double.round (units * powerUnits power) (Nat.pow 2 (2 * BinaryGrid.double.unitPower))
    if product < BinaryGrid.double.limit then some product else none

/-- The double that the two steps lead to; `none` beyond the largest. -/
def read? (negative : Bool) (d : Decimal) : Option Binary64 :=
  let units := BinaryGrid.double.round d.digits 1
  if 0 ≤ d.exponent then (scaleUp? units d.exponent.toNat).map (.finite negative)
  else some (.finite negative (scaleDown units (-d.exponent).toNat))

end TextTemplate.Stepwise
