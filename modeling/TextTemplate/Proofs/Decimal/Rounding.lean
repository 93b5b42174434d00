import Mathlib.Algebra.Group.Nat.Defs
import Mathlib.Data.Nat.Log
import TextTemplate.Decimal.Binary64

/-!
Rounding to the grid of a binary format. It keeps the order of what is rounded, and moves no whole
number that the format holds.
-/
namespace TextTemplate

namespace BinaryGrid

section Nearest

variable {num den k : Nat}

/-- A multiple that is not passed by a quotient is not passed by what it is rounded to. -/
theorem nearest_le (positive : 0 < den) (bound : num ≤ k * den) : nearest num den ≤ k := by
  have split := Nat.div_add_mod num den
  have below := Nat.mod_lt num positive
  have le : num / den ≤ k := Nat.div_le_of_le_mul (by rwa [Nat.mul_comm])
  unfold nearest
  rcases Nat.lt_or_eq_of_le le with less | same
  · dsimp only
    split_ifs <;> omega
  · -- a quotient that reaches the multiple has no remainder
    have none : num % den = 0 := by
      rw [same, Nat.mul_comm] at split
      omega
    dsimp only
    rw [none, if_pos (by omega)]
    exact le

theorem le_nearest (positive : 0 < den) (bound : k * den ≤ num) : k ≤ nearest num den := by
  have le : k ≤ num / den := (Nat.le_div_iff_mul_le positive).mpr bound
  unfold nearest
  dsimp only
  split_ifs <;> omega

theorem nearest_multiple (positive : 0 < den) (k : Nat) : nearest (k * den) den = k :=
  Nat.le_antisymm (nearest_le positive (Nat.le_refl _)) (le_nearest positive (Nat.le_refl _))

theorem nearest_mono {a b : Nat} (positive : 0 < den) (le : a ≤ b) : nearest a den ≤ nearest b den := by
  have between : a / den ≤ b / den := Nat.div_le_div_right le
  rcases Nat.lt_or_eq_of_le between with less | same
  · -- the multiple between the two quotients
    have below : a ≤ (a / den + 1) * den := by
      rw [Nat.mul_comm]
      exact (Nat.lt_mul_div_succ a positive).le
    have above : (a / den + 1) * den ≤ b := (Nat.le_div_iff_mul_le positive).mp less
    exact (nearest_le positive below).trans (le_nearest positive above)
  · have splitA := Nat.div_add_mod a den
    have splitB := Nat.div_add_mod b den
    have remainders : a % den ≤ b % den := by
      rw [same] at splitA
      omega
    unfold nearest
    rw [same]
    dsimp only
    split_ifs <;> omega

end Nearest

variable {grid : BinaryGrid} {a b den : Nat}

theorem excessBits_mono (le : a ≤ b) : grid.excessBits a ≤ grid.excessBits b := by
  have logs : a.log2 ≤ b.log2 := by
    rw [Nat.log2_eq_log_two, Nat.log2_eq_log_two]
    exact Nat.log_mono_right le
  unfold excessBits
  omega

theorem round_eq (grid : BinaryGrid) (a den : Nat) :
    grid.round a den =
      nearest (a * 2 ^ grid.unitPower) (den * 2 ^ grid.excessBits (a * 2 ^ grid.unitPower / den)) *
        2 ^ grid.excessBits (a * 2 ^ grid.unitPower / den) := rfl

section Points

variable {p : Nat}

/-- What a power of two on the grid bounds is not rounded beyond it. -/
theorem round_le_point (positive : 0 < den) (fine : grid.excessBits (a * 2 ^ grid.unitPower / den) ≤ p)
    (bound : a * 2 ^ grid.unitPower ≤ 2 ^ p * den) : grid.round a den ≤ 2 ^ p := by
  have steps := Nat.pow_sub_mul_pow 2 fine
  have near : nearest (a * 2 ^ grid.unitPower) (den * 2 ^ grid.excessBits (a * 2 ^ grid.unitPower / den)) ≤
      2 ^ (p - grid.excessBits (a * 2 ^ grid.unitPower / den)) := by
    refine nearest_le (Nat.mul_pos positive (Nat.two_pow_pos _)) (bound.trans_eq ?_)
    rw [← steps]
    ac_rfl
  rw [round_eq, ← steps]
  exact Nat.mul_le_mul_right _ near

theorem point_le_round (positive : 0 < den) (fine : grid.excessBits (a * 2 ^ grid.unitPower / den) ≤ p)
    (bound : 2 ^ p * den ≤ a * 2 ^ grid.unitPower) : 2 ^ p ≤ grid.round a den := by
  have steps := Nat.pow_sub_mul_pow 2 fine
  have near : 2 ^ (p - grid.excessBits (a * 2 ^ grid.unitPower / den)) ≤
      nearest (a * 2 ^ grid.unitPower) (den * 2 ^ grid.excessBits (a * 2 ^ grid.unitPower / den)) := by
    refine le_nearest (Nat.mul_pos positive (Nat.two_pow_pos _)) (Eq.trans_le ?_ bound)
    rw [← steps]
    ac_rfl
  rw [round_eq, ← steps]
  exact Nat.mul_le_mul_right _ near

end Points

/-- What is rounded stays below the next power of two, or reaches it. -/
theorem round_le_power (positive : 0 < den) :
    grid.round a den ≤ 2 ^ ((a * 2 ^ grid.unitPower / den).log2 + 1) := by
  apply round_le_point positive
  · exact Nat.sub_le ..
  · calc a * 2 ^ grid.unitPower ≤ (a * 2 ^ grid.unitPower / den + 1) * den := by
          rw [Nat.mul_comm (_ + 1)]
          exact (Nat.lt_mul_div_succ _ positive).le
      _ ≤ _ := Nat.mul_le_mul_right den Nat.lt_log2_self

/-- What is rounded keeps its highest power of two. -/
theorem power_le_round (significant : 0 < grid.precision) (positive : 0 < den)
    (reached : a * 2 ^ grid.unitPower / den ≠ 0) :
    2 ^ (a * 2 ^ grid.unitPower / den).log2 ≤ grid.round a den := by
  apply point_le_round positive
  · unfold excessBits
    omega
  · calc 2 ^ (a * 2 ^ grid.unitPower / den).log2 * den ≤ a * 2 ^ grid.unitPower / den * den :=
          Nat.mul_le_mul_right den (Nat.log2_self_le reached)
      _ ≤ a * 2 ^ grid.unitPower := Nat.div_mul_le_self ..

/-- Whether a format has the bits for a number of its units. -/
def Holds (grid : BinaryGrid) (units : Nat) : Prop :=
  2 ^ grid.excessBits units ∣ units

/-- What is rounded has no more bits than the format. -/
theorem holds_round (significant : 0 < grid.precision) (positive : 0 < den) : grid.Holds (grid.round a den) := by
  let excess := grid.excessBits (a * 2 ^ grid.unitPower / den)
  unfold Holds
  have upTo : grid.round a den ≤ 2 ^ ((a * 2 ^ grid.unitPower / den).log2 + 1) := round_le_power positive
  rcases Nat.lt_or_eq_of_le upTo with below | power
  · -- the bits that were cut off are still all that is too much
    have bits : grid.excessBits (grid.round a den) ≤ excess := by
      by_cases nothing : grid.round a den = 0
      · rw [nothing, excessBits, Nat.log2_zero]
        omega
      · have log := (Nat.log2_lt nothing).mpr below
        simp only [excess, excessBits]
        omega
    exact Nat.dvd_trans (Nat.pow_dvd_pow 2 bits) (Nat.dvd_mul_left ..)
  · rw [power, excessBits, Nat.log2_two_pow]
    exact Nat.pow_dvd_pow 2 (by omega)

/-- The larger one of two numbers is not rounded to less. -/
theorem round_mono (significant : 0 < grid.precision) (positive : 0 < den) (le : a ≤ b) :
    grid.round a den ≤ grid.round b den := by
  have scaled : a * 2 ^ grid.unitPower ≤ b * 2 ^ grid.unitPower := Nat.mul_le_mul_right _ le
  have units : a * 2 ^ grid.unitPower / den ≤ b * 2 ^ grid.unitPower / den := Nat.div_le_div_right scaled
  have bits : grid.excessBits (a * 2 ^ grid.unitPower / den) ≤ grid.excessBits (b * 2 ^ grid.unitPower / den) :=
    excessBits_mono units
  rcases Nat.lt_or_eq_of_le bits with coarser | same
  · -- then a power of two stands between them, which is on the grid of both
    have reached : b * 2 ^ grid.unitPower / den ≠ 0 := by
      intro none
      rw [none] at units coarser
      rw [Nat.le_zero.mp units] at coarser
      exact absurd coarser (Nat.lt_irrefl _)
    have powers : (a * 2 ^ grid.unitPower / den).log2 + 1 ≤ (b * 2 ^ grid.unitPower / den).log2 := by
      unfold excessBits at coarser
      omega
    calc grid.round a den ≤ 2 ^ ((a * 2 ^ grid.unitPower / den).log2 + 1) := round_le_power positive
      _ ≤ 2 ^ (b * 2 ^ grid.unitPower / den).log2 := Nat.pow_le_pow_right (by decide) powers
      _ ≤ grid.round b den := power_le_round significant positive reached
  · rw [round_eq, round_eq, same]
    exact Nat.mul_le_mul_right _ (nearest_mono (Nat.mul_pos positive (Nat.two_pow_pos _)) scaled)

/-- Whole numbers that need no more bits than the format has are not moved. -/
theorem round_whole (significant : 0 < grid.precision) {n : Nat} (small : n ≤ 2 ^ grid.precision) :
    grid.round n 1 = n * 2 ^ grid.unitPower := by
  have divides : 2 ^ grid.excessBits (n * 2 ^ grid.unitPower) ∣ n * 2 ^ grid.unitPower := by
    rcases Nat.lt_or_eq_of_le small with less | rfl
    · have units : n * 2 ^ grid.unitPower < 2 ^ (grid.precision + grid.unitPower) := by
        rw [Nat.pow_add]
        exact Nat.mul_lt_mul_of_pos_right less (Nat.two_pow_pos _)
      have power : grid.excessBits (n * 2 ^ grid.unitPower) ≤ grid.unitPower := by
        by_cases none : n * 2 ^ grid.unitPower = 0
        · rw [none, excessBits, Nat.log2_zero]
          omega
        · have log := (Nat.log2_lt none).mpr units
          unfold excessBits
          omega
      exact Nat.dvd_trans (Nat.pow_dvd_pow 2 power) (Nat.dvd_mul_left ..)
    · rw [← Nat.pow_add, excessBits, Nat.log2_two_pow]
      exact Nat.pow_dvd_pow 2 (by omega)
  obtain ⟨k, multiple⟩ := divides
  rw [round_eq, Nat.div_one, Nat.one_mul]
  generalize grid.excessBits (n * 2 ^ grid.unitPower) = e at multiple ⊢
  rw [multiple, Nat.mul_comm _ k, nearest_multiple (Nat.two_pow_pos _)]

/-- What a whole number becomes in units of the grid, which ends at its limit. -/
def roundWhole (grid : BinaryGrid) (n : Nat) : Nat :=
  min (grid.round n 1) grid.limit

theorem roundWhole_mono (significant : 0 < grid.precision) {m n : Nat} (le : m ≤ n) :
    grid.roundWhole m ≤ grid.roundWhole n := by
  have rounded : grid.round m 1 ≤ grid.round n 1 := round_mono significant Nat.one_pos le
  unfold roundWhole
  omega

theorem roundWhole_small (significant : 0 < grid.precision) (range : grid.precision ≤ grid.topPower) {n : Nat}
    (small : n ≤ 2 ^ grid.precision) : grid.roundWhole n = n * 2 ^ grid.unitPower := by
  have inside : n * 2 ^ grid.unitPower ≤ grid.limit := by
    calc n * 2 ^ grid.unitPower ≤ 2 ^ grid.topPower * 2 ^ grid.unitPower :=
          Nat.mul_le_mul_right _ (small.trans (Nat.pow_le_pow_right (by decide) range))
      _ = 2 ^ (grid.topPower + grid.unitPower) := (Nat.pow_add ..).symm
  rw [roundWhole, round_whole significant small, Nat.min_eq_left inside]

end BinaryGrid

namespace Binary64

@[simp]
theorem signed_true (magnitude : Nat) : signed true magnitude = -(magnitude : Int) := rfl

@[simp]
theorem signed_false (magnitude : Nat) : signed false magnitude = magnitude := rfl

/-- The sign of an integer before its magnitude, in some unit. -/
theorem signed_natAbs (i : Int) (unit : Nat) : signed (decide (i < 0)) (i.natAbs * unit) = i * unit := by
  by_cases negative : i < 0
  · have magnitude : (i.natAbs : Int) = -i := by omega
    rw [decide_eq_true negative, signed_true, Int.natCast_mul, magnitude, Int.neg_mul, Int.neg_neg]
  · have magnitude : (i.natAbs : Int) = i := by omega
    rw [decide_eq_false negative, signed_false, Int.natCast_mul, magnitude]

/-- Integers stand in the order of their magnitudes if these are rounded in their order. -/
theorem signed_mono {round : Nat → Nat} (mono : ∀ {m n : Nat}, m ≤ n → round m ≤ round n) {i j : Int} (le : i ≤ j) :
    signed (decide (i < 0)) (round i.natAbs) ≤ signed (decide (j < 0)) (round j.natAbs) := by
  by_cases negative : i < 0
  · by_cases negative' : j < 0
    · have magnitudes := mono (show j.natAbs ≤ i.natAbs by omega)
      rw [decide_eq_true negative, decide_eq_true negative', signed_true, signed_true]
      omega
    · rw [decide_eq_true negative, decide_eq_false negative', signed_true, signed_false]
      omega
  · have magnitudes := mono (show i.natAbs ≤ j.natAbs by omega)
    rw [decide_eq_false negative, decide_eq_false (show ¬j < 0 by omega), signed_false, signed_false]
    omega

/-- An integer becomes the float nearest to it, or an infinite one beyond all of them. -/
theorem place?_ofInt (i : Int) :
    (ofInt i).place? = some (signed (decide (i < 0)) (BinaryGrid.double.roundWhole i.natAbs)) := by
  unfold ofInt ofQuotient ofQuotientOn BinaryGrid.roundWhole
  dsimp only
  split
  · rename_i inside
    rw [Nat.sub_self, Nat.min_eq_left (Nat.le_of_lt inside), place?]
    exact congrArg (fun units => some (signed _ units)) (Nat.mul_one _)
  · rename_i outside
    rw [Nat.min_eq_right (Nat.le_of_not_lt outside), place?]

/-- Integers become floats in their order, though different ones may become the same. -/
theorem place?_ofInt_mono {i j : Int} (le : i ≤ j) :
    ∃ p q, (ofInt i).place? = some p ∧ (ofInt j).place? = some q ∧ p ≤ q :=
  ⟨_, _, place?_ofInt i, place?_ofInt j, signed_mono (BinaryGrid.roundWhole_mono (by decide)) le⟩

/-- Integers that have no more bits than a float become floats without being moved. -/
theorem place?_ofInt_small {i : Int} (small : i.natAbs ≤ 2 ^ BinaryGrid.double.precision) :
    (ofInt i).place? = some (i * (2 ^ BinaryGrid.double.unitPower : Nat)) := by
  rw [place?_ofInt, BinaryGrid.roundWhole_small (by decide) (by decide) small, signed_natAbs]

end Binary64

end TextTemplate
