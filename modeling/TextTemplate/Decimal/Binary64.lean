/-!
Double-precision numbers as exact values. A finite number is a sign and a whole number of units,
one unit being the least positive double 2^-1074, so two numbers compare as integers do.
-/
namespace TextTemplate

inductive Binary64 where
  | nan
  | infinite (negative : Bool)
  | finite (negative : Bool) (units : Nat)
  deriving DecidableEq, Inhabited, Repr

/-- The numbers of a binary format: multiples of 2^-`unitPower` with at most `precision`
significant bits, below 2^`topPower`. -/
structure BinaryGrid where
  precision : Nat
  unitPower : Nat
  topPower : Nat

namespace BinaryGrid

def double : BinaryGrid := ⟨53, 1074, 1024⟩

def single : BinaryGrid := ⟨24, 149, 128⟩

/-- The whole number nearest to a quotient, the even one of two. -/
def nearest (num den : Nat) : Nat :=
  let q := num / den
  let r := num % den
  if 2 * r < den then q
  else if den < 2 * r then q + 1
  else if q % 2 = 0 then q else q + 1

/-- How many low bits of a whole number of units lie beyond the precision. -/
def excessBits (grid : BinaryGrid) (units : Nat) : Nat :=
  units.log2 + 1 - grid.precision

/-- The grid point nearest to a quotient, in units, the even one of two. -/
def round (grid : BinaryGrid) (num den : Nat) : Nat :=
  let scaled := num * Nat.pow 2 grid.unitPower
  let step := Nat.pow 2 (grid.excessBits (scaled / den))
  nearest scaled (den * step) * step

/-- The first whole number of units that the format cannot hold. -/
def limit (grid : BinaryGrid) : Nat :=
  Nat.pow 2 (grid.topPower + grid.unitPower)

end BinaryGrid

namespace Binary64

/-- The number of a narrower grid that is nearest to a quotient, infinite beyond the largest. -/
def ofQuotientOn (grid : BinaryGrid) (negative : Bool) (num den : Nat) : Binary64 :=
  let units := grid.round num den
  if units < grid.limit then .finite negative (units * Nat.pow 2 (BinaryGrid.double.unitPower - grid.unitPower))
  else .infinite negative

def ofQuotient (negative : Bool) (num den : Nat) : Binary64 :=
  ofQuotientOn .double negative num den

def ofInt (i : Int) : Binary64 :=
  ofQuotient (decide (i < 0)) i.natAbs 1

def isNaN : Binary64 → Bool
  | .nan => true
  | _ => false

def isZero : Binary64 → Bool
  | .finite _ units => units == 0
  | _ => false

def signed (negative : Bool) (magnitude : Nat) : Int :=
  if negative then -(magnitude : Int) else magnitude

/-- The place of a number on the line, in units; the infinite ones stand beyond every finite one. -/
def place? : Binary64 → Option Int
  | .nan => none
  | .infinite negative => some (signed negative BinaryGrid.double.limit)
  | .finite negative units => some (signed negative units)

/-- Compares as numbers: nothing compares with a number that is none, and both zeros are equal. -/
def compare? (a b : Binary64) : Option Ordering :=
  match a.place?, b.place? with
  | some x, some y => some (compare x y)
  | _, _ => none

/-- Equality as numbers. -/
def sameNumber (a b : Binary64) : Bool :=
  a.compare? b == some .eq

def halve : Binary64 → Binary64
  | .finite negative units => .finite negative (BinaryGrid.nearest units 2)
  | x => x

end Binary64

end TextTemplate
