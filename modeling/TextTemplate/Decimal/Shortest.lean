import TextTemplate.Decimal.Binary64

/-!
The shortest decimal that reads back as a double. Among the decimals with the fewest digits inside
the interval that rounds to the number, the nearest to it is taken.
-/
namespace TextTemplate

/-- Which of two equally near decimals is taken. -/
inductive DecimalTie where
  | up
  | even

/-- The decimal `digits` · 10^`exponent`. -/
structure Decimal where
  digits : Nat
  exponent : Int
  deriving DecidableEq, Repr

namespace Decimal

/-- The decimal without the zeros that end its digits. -/
def trim (d : Decimal) : Decimal :=
  if _h : d.digits = 0 then ⟨0, 0⟩
  else if d.digits % 10 = 0 then trim ⟨d.digits / 10, d.exponent + 1⟩
  else d
termination_by d.digits
decreasing_by
  omega

def text (d : Decimal) : String :=
  toString d.digits

/-- The power of ten above the decimal: its value is below 10^`top` and not below 10^(`top` - 1). -/
def top (d : Decimal) : Int :=
  d.text.length + d.exponent

end Decimal

/-- The numbers that round to one double, in halves of a unit. -/
structure RoundingInterval where
  low : Nat
  high : Nat
  closed : Bool

namespace RoundingInterval

def ofUnits (units : Nat) : RoundingInterval :=
  let excess := BinaryGrid.double.excessBits units
  let gap := Nat.pow 2 excess
  let gapBelow := if 0 < excess ∧ units = Nat.pow 2 (BinaryGrid.double.precision - 1 + excess) then gap / 2 else gap
  ⟨2 * units - gapBelow, 2 * units + gap, units / gap % 2 == 0⟩

/-- Whether the quotient of two whole numbers of halves lies in the interval. -/
def admits (interval : RoundingInterval) (num den : Nat) : Bool :=
  if interval.closed then interval.low * den ≤ num && num ≤ interval.high * den
  else interval.low * den < num && num < interval.high * den

end RoundingInterval

namespace Shortest

/-- The scale on which a decimal of exponent `e` and a number of half units are both whole:
one half unit is `unit`, one step of the decimal grid is `step`. -/
def unit (e : Int) : Nat := Nat.pow 10 (-e).toNat

def step (e : Int) : Nat := Nat.pow 10 e.toNat * Nat.pow 2 (BinaryGrid.double.unitPower + 1)

/-- The decimal of exponent `e` that stands for the number, if one lies in its interval. -/
def onGrid? (tie : DecimalTie) (units : Nat) (e : Int) : Option Decimal :=
  let interval := RoundingInterval.ofUnits units
  let value := 2 * units * unit e
  let below := value / step e
  let rest := value % step e
  let fits (n : Nat) : Bool := interval.admits (n * step e) (unit e)
  let upper :=
    if 2 * rest = step e then
      match tie with
      | .up => true
      | .even => below % 2 == 1
    else decide (step e < 2 * rest)
  match fits below, fits (below + 1) with
  | true, true => some ⟨if upper then below + 1 else below, e⟩
  | true, false => some ⟨below, e⟩
  | false, true => some ⟨below + 1, e⟩
  | false, false => none

/-- A power of ten above the number. -/
def topOf (units : Nat) : Int :=
  (toString (units * Nat.pow 10 400 / Nat.pow 2 BinaryGrid.double.unitPower)).length - 400

/-- Seventeen digits are always enough. -/
def decimal (tie : DecimalTie) (units : Nat) : Decimal :=
  let top := topOf units
  let tries := (List.range 17).map fun n => top - (n + 1 : Nat)
  ((tries.findSome? (onGrid? tie units)).getD ⟨0, 0⟩).trim

end Shortest

end TextTemplate
