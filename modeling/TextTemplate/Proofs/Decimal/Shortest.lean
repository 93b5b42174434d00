import Mathlib.Tactic.Positivity
import Mathlib.Tactic.Ring
import TextTemplate.Decimal.Reading
import TextTemplate.Decimal.Style
import TextTemplate.Proofs.Decimal.Rounding

/-!
Shortest decimals. The interval of a double reaches at least so far that one of the two decimals of
seventeen digits next to the double lies in it, so that a decimal is always found. A whole double is found
without a fraction; the interval of any other one has no whole number in it.
-/
namespace TextTemplate

namespace RoundingInterval

variable {interval : RoundingInterval} {num den units : Nat}

theorem admits_of_between (above : interval.low * den < num) (below : num < interval.high * den) :
    interval.admits num den = true := by
  unfold admits
  split
  · simp [above.le, below.le]
  · simp [above, below]

theorem between_of_admits (inside : interval.admits num den = true) :
    interval.low * den ≤ num ∧ num ≤ interval.high * den := by
  unfold admits at inside
  split at inside
  · simpa using inside
  · have strict : interval.low * den < num ∧ num < interval.high * den := by simpa using inside
    exact ⟨strict.1.le, strict.2.le⟩

/-- Of the two multiples of a step next to a number, one lies in an interval that reaches further on both sides of the
number than half a step. -/
theorem admits_multiple {step value reach : Nat} (positive : 0 < step) (low : interval.low * den + reach ≤ value)
    (high : value + reach ≤ interval.high * den) (near : step < 2 * reach) :
    interval.admits (value / step * step) den = true ∨ interval.admits ((value / step + 1) * step) den = true := by
  have split := Nat.div_add_mod value step
  have rest := Nat.mod_lt value positive
  rw [Nat.mul_comm] at split
  rcases Nat.lt_or_ge step (2 * (value % step)) with above | below
  · right
    apply admits_of_between
    · rw [Nat.add_mul]
      omega
    · rw [Nat.add_mul]
      omega
  · left
    apply admits_of_between
    · omega
    · omega

/-- The gap above a number of units is no more than the number. -/
theorem gap_le (positive : 0 < units) : 2 ^ BinaryGrid.double.excessBits units ≤ units := by
  refine (Nat.pow_le_pow_right (by decide) ?_).trans (Nat.log2_self_le positive.ne')
  simp only [BinaryGrid.excessBits, BinaryGrid.double]
  omega

/-- The interval of a number of units reaches up by its gap. Down it reaches by no more, but at least by as much as half
of the last of its bits is worth. -/
theorem ofUnits_reach (units : Nat) :
    ∃ reach, (ofUnits units).low = 2 * units - reach ∧
      (ofUnits units).high = 2 * units + 2 ^ BinaryGrid.double.excessBits units ∧ 0 < reach ∧
      reach ≤ 2 ^ BinaryGrid.double.excessBits units ∧ 2 * units ≤ 2 ^ 54 * reach := by
  have bits : units.log2 + 1 ≤ 53 + BinaryGrid.double.excessBits units := by
    simp only [BinaryGrid.excessBits, BinaryGrid.double]
    omega
  have below : units < 2 ^ 53 * 2 ^ BinaryGrid.double.excessBits units := by
    rw [← Nat.pow_add]
    exact Nat.lt_log2_self.trans_le (Nat.pow_le_pow_right (by decide) bits)
  refine ⟨_, rfl, rfl, ?_⟩
  generalize BinaryGrid.double.excessBits units = excess at below ⊢
  have gap := Nat.two_pow_pos excess
  rw [show Nat.pow 2 excess = 2 ^ excess from rfl]
  split
  · -- the lowest number of a binade, below which the gaps are half as wide
    rename_i lowest
    obtain ⟨some, same⟩ := lowest
    obtain ⟨k, rfl⟩ := Nat.exists_eq_succ_of_ne_zero some.ne'
    have same : units = 2 ^ 52 * 2 ^ (k + 1) := same.trans (Nat.pow_add 2 52 (k + 1))
    have halves : 2 ^ (k + 1) = 2 * 2 ^ k := Nat.pow_succ'
    omega
  · omega

end RoundingInterval

/-- Zeros at the end of the digits go over into the exponent. -/
theorem Decimal.trim_cases (d : Decimal) :
    d.digits = 0 ∧ d.trim = ⟨0, 0⟩ ∨
      ∃ zeros : Nat, d.digits = d.trim.digits * 10 ^ zeros ∧ d.trim.exponent = d.exponent + zeros := by
  fun_induction trim d with
  | case1 d nothing => exact .inl ⟨nothing, rfl⟩
  | case2 d some whole ih =>
    have shorter : d.digits = d.digits / 10 * 10 := by omega
    rcases ih with ⟨nothing, -⟩ | ⟨zeros, digits, exponent⟩
    · exact absurd nothing (by dsimp only; omega)
    · refine .inr ⟨zeros + 1, ?_, ?_⟩
      · rw [Nat.pow_succ, ← Nat.mul_assoc, ← digits]
        exact shorter
      · rw [exponent]
        push_cast
        omega
  | case3 d => exact .inr ⟨0, by simp, by simp⟩

namespace Shortest

variable {tie : DecimalTie} {units : Nat} {e : Int} {d : Decimal}

/-- What is found on a grid lies in the interval of the number. -/
theorem onGrid?_inside (found : onGrid? tie units e = some d) :
    d.exponent = e ∧ (RoundingInterval.ofUnits units).admits (d.digits * step e) (unit e) = true := by
  unfold onGrid? at found
  dsimp only at found
  obtain ⟨digits, exponent⟩ := d
  split at found
  · rename_i below above
    obtain ⟨rfl, rfl⟩ := Decimal.mk.inj (Option.some.inj found)
    let Inside (n : Nat) : Prop := (RoundingInterval.ofUnits units).admits (n * step e) (unit e) = true
    exact ⟨rfl, iteInduction (motive := Inside) (fun _ => above) fun _ => below⟩
  · rename_i below above
    obtain ⟨rfl, rfl⟩ := Decimal.mk.inj (Option.some.inj found)
    exact ⟨rfl, below⟩
  · rename_i below above
    obtain ⟨rfl, rfl⟩ := Decimal.mk.inj (Option.some.inj found)
    exact ⟨rfl, above⟩
  · cases found

/-- A decimal is found on a grid if one of the two next to the number lies in its interval. -/
theorem isSome_onGrid? (tie : DecimalTie)
    (fits : (RoundingInterval.ofUnits units).admits (2 * units * unit e / step e * step e) (unit e) = true ∨
      (RoundingInterval.ofUnits units).admits ((2 * units * unit e / step e + 1) * step e) (unit e) = true) :
    (onGrid? tie units e).isSome = true := by
  unfold onGrid?
  dsimp only
  rcases fits with fits | fits
  · rw [fits]
    split <;> trivial
  · rw [fits]
    split <;> trivial

theorem findSome?_of_isSome {α : Type} {f : Int → Option α} {tries : List Int} (decreasing : tries.Pairwise (· > ·))
    {x : Int} (inside : x ∈ tries) (hit : (f x).isSome = true) :
    ∃ y a, x ≤ y ∧ f y = some a ∧ tries.findSome? f = some a := by
  induction tries with
  | nil => cases inside
  | cons y tries ih =>
    obtain ⟨first, later⟩ := List.pairwise_cons.mp decreasing
    cases found : f y with
    | some a =>
      refine ⟨y, a, ?_, found, by rw [List.findSome?_cons, found]⟩
      rcases List.mem_cons.mp inside with rfl | behind
      · exact Int.le_refl x
      · exact Int.le_of_lt (first x behind)
    | none =>
      rcases List.mem_cons.mp inside with rfl | behind
      · rw [found] at hit
        cases hit
      · rw [List.findSome?_cons, found]
        exact ih later behind

/-- The decimal of a number was found on a grid, and no later than on one where a decimal can be found. -/
theorem decimal_of_isSome {n : Nat} (inside : n < 17)
    (hit : (onGrid? tie units (topOf units - (n + 1))).isSome = true) :
    ∃ e d, topOf units - (n + 1) ≤ e ∧ onGrid? tie units e = some d ∧ decimal tie units = d.trim := by
  let tries := (List.range 17).map fun n => topOf units - (n + 1 : Nat)
  have decreasing : tries.Pairwise (· > ·) := by
    refine List.pairwise_map.mpr (List.pairwise_lt_range.imp fun less => ?_)
    omega
  have tried : topOf units - (n + 1) ∈ tries := List.mem_map.mpr ⟨n, List.mem_range.mpr inside, by push_cast; rfl⟩
  obtain ⟨e, d, first, found, all⟩ := findSome?_of_isSome decreasing tried hit
  refine ⟨e, d, first, found, ?_⟩
  unfold decimal
  dsimp only
  rw [show ((List.range 17).map fun n => topOf units - (n + 1 : Nat)).findSome? (onGrid? tie units) = some d from all]
  rfl

theorem pow_length_le {n : Nat} (positive : 0 < n) : 10 ^ ((toString n).length - 1) ≤ n := by
  have some : 0 < (toString n).length := Nat.length_repr_pos
  rcases Nat.lt_or_ge 1 (toString n).length with more | one
  · have reach : (toString n).length ≤ (toString n).length - 1 ↔ n < 10 ^ ((toString n).length - 1) :=
      Nat.length_repr_le_iff (by omega)
    exact Nat.le_of_not_lt fun less => absurd (reach.mpr less) (by omega)
  · rw [show (toString n).length - 1 = 0 by omega]
    exact positive

theorem lt_pow_length (n : Nat) : n < 10 ^ (toString n).length :=
  (Nat.length_repr_le_iff Nat.length_repr_pos).mp (Nat.le_refl _)

/-- Three bits are worth less than a digit. -/
theorem two_pow_le_ten_pow (n : Nat) : 2 ^ (3 * n) ≤ 10 ^ n := by
  rw [Nat.pow_mul]
  exact Nat.pow_le_pow_left (by decide) n

/-- The top of a number is no higher than the number reaches. -/
theorem topOf_cases (positive : 0 < units) :
    ∃ length : Nat, 0 < length ∧ topOf units = length - 400 ∧
      10 ^ (length - 1) * 2 ^ BinaryGrid.double.unitPower ≤ units * 10 ^ 400 ∧
      (2 ^ BinaryGrid.double.unitPower ≤ units → 400 < length) := by
  have unitSmall : 2 ^ BinaryGrid.double.unitPower ≤ 10 ^ 400 :=
    (Nat.pow_le_pow_right (by decide) (by decide)).trans (two_pow_le_ten_pow 400)
  have unitPositive : 0 < 2 ^ BinaryGrid.double.unitPower := Nat.two_pow_pos _
  have top : topOf units = (toString (units * 10 ^ 400 / 2 ^ BinaryGrid.double.unitPower)).length - 400 := by
    rw [topOf, Nat.pow_eq, Nat.pow_eq]
  generalize 2 ^ BinaryGrid.double.unitPower = one at unitSmall unitPositive top ⊢
  have large (whole : one ≤ units) : 10 ^ 400 ≤ units * 10 ^ 400 / one := by
    refine (Nat.le_div_iff_mul_le unitPositive).mpr ?_
    rw [Nat.mul_comm]
    exact Nat.mul_le_mul_right _ whole
  have scaledPositive : 0 < units * 10 ^ 400 / one :=
    Nat.div_pos (unitSmall.trans (Nat.le_mul_of_pos_left _ positive)) unitPositive
  have below : units * 10 ^ 400 / one * one ≤ units * 10 ^ 400 := Nat.div_mul_le_self ..
  generalize units * 10 ^ 400 / one = scaled at top large scaledPositive below
  refine ⟨_, Nat.length_repr_pos, top, ?_, fun whole => ?_⟩
  · exact (Nat.mul_le_mul_right one (pow_length_le scaledPositive)).trans below
  · exact (Nat.pow_lt_pow_iff_right (by decide)).mp ((large whole).trans_lt (lt_pow_length scaled))

theorem step_eq (e : Int) : step e = 10 ^ e.toNat * (2 * 2 ^ BinaryGrid.double.unitPower) := by
  have doubled (k : Nat) : Nat.pow 10 e.toNat * Nat.pow 2 (k + 1) = 10 ^ e.toNat * (2 * 2 ^ k) :=
    congrArg (10 ^ e.toNat * ·) Nat.pow_succ'
  exact doubled BinaryGrid.double.unitPower

theorem step_natCast (n : Nat) : step n = 10 ^ n * (2 * 2 ^ BinaryGrid.double.unitPower) := by
  rw [step_eq, Int.toNat_natCast]

theorem step_neg (n : Nat) : step (-n) = 2 * 2 ^ BinaryGrid.double.unitPower := by
  rw [step_eq, Int.toNat_neg_natCast, Nat.pow_zero, Nat.one_mul]

theorem unit_natCast (n : Nat) : unit n = 1 := by
  rw [unit, Int.toNat_neg_natCast, Nat.pow_eq, Nat.pow_zero]

theorem unit_neg (n : Nat) : unit (-n) = 10 ^ n := by
  rw [unit, Int.neg_neg, Int.toNat_natCast, Nat.pow_eq]

/-- Sixteen digits stand in front of the last of seventeen. -/
theorem step_seventeen (positive : 0 < units) :
    step (topOf units - 17) * 10 ^ 16 ≤ 2 * units * unit (topOf units - 17) := by
  obtain ⟨length, some, top, reach, -⟩ := topOf_cases positive
  rcases Nat.le_total 417 length with long | short
  · obtain ⟨n, rfl⟩ := Nat.exists_eq_add_of_le long
    have here : topOf units - 17 = (n : Int) := by omega
    rw [here, step_natCast, unit_natCast]
    generalize 2 ^ BinaryGrid.double.unitPower = one at reach ⊢
    have split : 10 ^ (417 + n - 1) = 10 ^ n * 10 ^ 16 * 10 ^ 400 := by
      rw [← Nat.pow_add, ← Nat.pow_add]
      congr 1
      omega
    have some : 0 < 10 ^ 400 := by positivity
    rw [split] at reach
    generalize 10 ^ 400 = scale at reach some
    refine Nat.le_of_mul_le_mul_right ?_ some
    calc 10 ^ n * (2 * one) * 10 ^ 16 * scale = 2 * (10 ^ n * 10 ^ 16 * scale * one) := by ring
      _ ≤ 2 * (units * scale) := Nat.mul_le_mul_left 2 reach
      _ = 2 * units * 1 * scale := by ring
  · obtain ⟨n, rest⟩ := Nat.exists_eq_add_of_le short
    have here : topOf units - 17 = -(n : Int) := by omega
    rw [here, step_neg, unit_neg]
    generalize 2 ^ BinaryGrid.double.unitPower = one at reach ⊢
    have split : 10 ^ n * 10 ^ (length - 1) = 10 ^ 16 * 10 ^ 400 := by
      rw [← Nat.pow_add, ← Nat.pow_add]
      congr 1
      omega
    generalize 10 ^ 400 = scale at reach split
    refine Nat.le_of_mul_le_mul_right ?_ (Nat.pow_pos (n := length - 1) (Nat.succ_pos 9))
    calc 2 * one * 10 ^ 16 * 10 ^ (length - 1) = 2 * 10 ^ 16 * (10 ^ (length - 1) * one) := by ring
      _ ≤ 2 * 10 ^ 16 * (units * scale) := Nat.mul_le_mul_left _ reach
      _ = 2 * units * (10 ^ 16 * scale) := by ring
      _ = 2 * units * 10 ^ n * 10 ^ (length - 1) := by
          rw [← split]
          ring

theorem unit_pos (e : Int) : 0 < unit e :=
  Nat.pow_pos (Nat.succ_pos 9)

theorem step_pos (e : Int) : 0 < step e := by
  rw [step_eq]
  positivity

/-- Seventeen digits are enough: one of the two decimals next to a number is so near that it lies in the interval. -/
theorem isSome_onGrid?_seventeen (tie : DecimalTie) (positive : 0 < units) :
    (onGrid? tie units (topOf units - 17)).isSome = true := by
  obtain ⟨reach, low, high, some, inside, near⟩ := RoundingInterval.ofUnits_reach units
  have small := inside.trans (RoundingInterval.gap_le positive)
  have fine := step_seventeen positive
  have unitPositive := unit_pos (topOf units - 17)
  have below : (RoundingInterval.ofUnits units).low * unit (topOf units - 17) + reach * unit (topOf units - 17) ≤
      2 * units * unit (topOf units - 17) := by
    rw [low, ← Nat.add_mul]
    exact Nat.mul_le_mul_right _ (by omega)
  have above : 2 * units * unit (topOf units - 17) + reach * unit (topOf units - 17) ≤
      (RoundingInterval.ofUnits units).high * unit (topOf units - 17) := by
    rw [high, ← Nat.add_mul]
    exact Nat.mul_le_mul_right _ (Nat.add_le_add_left inside _)
  refine isSome_onGrid? tie (RoundingInterval.admits_multiple (step_pos _) below above ?_)
  generalize step (topOf units - 17) = step at fine ⊢
  generalize unit (topOf units - 17) = unit at fine unitPositive ⊢
  have reachPositive : 0 < reach * unit := Nat.mul_pos some unitPositive
  have scaled := Nat.mul_le_mul_right unit near
  rw [Nat.mul_assoc (2 ^ 54)] at scaled
  omega

/-- A whole number is found on the grid of whole numbers. -/
theorem isSome_onGrid?_whole (tie : DecimalTie) (positive : 0 < units)
    (whole : 2 ^ BinaryGrid.double.unitPower ∣ units) : (onGrid? tie units 0).isSome = true := by
  obtain ⟨reach, low, high, some, inside, -⟩ := RoundingInterval.ofUnits_reach units
  have here : step 0 = 2 * 2 ^ BinaryGrid.double.unitPower := step_neg 0
  have alone : unit 0 = 1 := unit_natCast 0
  refine isSome_onGrid? tie (.inl (RoundingInterval.admits_of_between ?_ ?_))
  · rw [here, alone, Nat.mul_one, Nat.mul_one, Nat.div_mul_cancel (Nat.mul_dvd_mul_left 2 whole), low]
    omega
  · rw [here, alone, Nat.mul_one, Nat.mul_one, Nat.div_mul_cancel (Nat.mul_dvd_mul_left 2 whole), high]
    omega

/-- Where a whole number rounds to a number that a double can be, that is whole itself. -/
theorem whole_of_between {n : Nat} (held : BinaryGrid.double.Holds units)
    (low : (RoundingInterval.ofUnits units).low ≤ n * (2 * 2 ^ BinaryGrid.double.unitPower))
    (high : n * (2 * 2 ^ BinaryGrid.double.unitPower) ≤ (RoundingInterval.ofUnits units).high) :
    2 ^ BinaryGrid.double.unitPower ∣ units := by
  obtain ⟨reach, lowest, highest, -, inside, -⟩ := RoundingInterval.ofUnits_reach units
  rw [lowest] at low
  rw [highest] at high
  unfold BinaryGrid.Holds at held
  generalize BinaryGrid.double.unitPower = power at low high ⊢
  generalize BinaryGrid.double.excessBits units = excess at held inside high
  rcases Nat.le_total power excess with coarse | fine
  · exact Nat.dvd_trans (Nat.pow_dvd_pow 2 coarse) held
  · -- the whole number and the other one stand on a grid that is wider than the interval reaches
    obtain ⟨parts, one⟩ := Nat.pow_dvd_pow 2 fine
    obtain ⟨m, rfl⟩ := held
    have some := Nat.two_pow_pos excess
    rw [one] at low high ⊢
    generalize 2 ^ excess = gap at low high inside some ⊢
    have whole : n * (2 * (gap * parts)) = 2 * (gap * (n * parts)) := by ring
    rw [whole] at low high
    have below : m < n * parts + 1 := by
      refine Nat.lt_of_mul_lt_mul_left (a := gap) ?_
      rw [Nat.mul_add]
      omega
    have above : n * parts < m + 1 := by
      refine Nat.lt_of_mul_lt_mul_left (a := gap) ?_
      rw [Nat.mul_add]
      omega
    obtain rfl : m = n * parts := by omega
    exact ⟨n, by ring⟩

/-- A decimal that ends with no fraction is a whole number in its interval. -/
theorem between_of_trim {low high : Nat} (noFraction : 0 ≤ d.trim.exponent)
    (above : low * unit d.exponent ≤ d.digits * step d.exponent)
    (below : d.digits * step d.exponent ≤ high * unit d.exponent) :
    ∃ n, low ≤ n * (2 * 2 ^ BinaryGrid.double.unitPower) ∧ n * (2 * 2 ^ BinaryGrid.double.unitPower) ≤ high := by
  rcases d.trim_cases with ⟨nothing, -⟩ | ⟨zeros, digits, exponent⟩
  · have lowest : low * unit d.exponent ≤ 0 * unit d.exponent := by
      rw [nothing] at above
      exact above.trans (by rw [Nat.zero_mul, Nat.zero_mul])
    have none := Nat.le_of_mul_le_mul_right lowest (unit_pos d.exponent)
    exact ⟨0, by omega, by omega⟩
  rw [exponent] at noFraction
  obtain ⟨k, here | here⟩ := Int.eq_nat_or_neg d.exponent
  · rw [here, unit_natCast, step_natCast] at above below
    generalize 2 * 2 ^ BinaryGrid.double.unitPower = one at above below ⊢
    refine ⟨d.digits * 10 ^ k, ?_, ?_⟩
    · rwa [Nat.mul_assoc, ← Nat.mul_one low]
    · rwa [Nat.mul_assoc, ← Nat.mul_one high]
  · rw [here, unit_neg, step_neg] at above below
    generalize 2 * 2 ^ BinaryGrid.double.unitPower = one at above below ⊢
    have shift : d.digits * one = d.trim.digits * 10 ^ (zeros - k) * one * 10 ^ k := by
      rw [Nat.mul_right_comm, Nat.mul_assoc _ _ (10 ^ k), Nat.pow_sub_mul_pow 10 (by omega), ← digits]
    rw [shift] at above below
    have some : 0 < 10 ^ k := Nat.pow_pos (Nat.succ_pos 9)
    exact ⟨_, Nat.le_of_mul_le_mul_right above some, Nat.le_of_mul_le_mul_right below some⟩

/-- The shortest decimal of a double has no fraction just if the double is whole. -/
theorem exponent_decimal (tie : DecimalTie) (positive : 0 < units) (held : BinaryGrid.double.Holds units) :
    0 ≤ (decimal tie units).exponent ↔ 2 ^ BinaryGrid.double.unitPower ∣ units := by
  have always := isSome_onGrid?_seventeen tie positive
  constructor
  · intro noFraction
    obtain ⟨e, d, -, found, same⟩ := decimal_of_isSome (n := 16) (by decide) always
    obtain ⟨rfl, inside⟩ := onGrid?_inside found
    obtain ⟨above, below⟩ := RoundingInterval.between_of_admits inside
    rw [same] at noFraction
    obtain ⟨n, low, high⟩ := between_of_trim noFraction above below
    exact whole_of_between held low high
  · intro whole
    obtain ⟨length, -, top, -, long⟩ := topOf_cases positive
    have long := long (Nat.le_of_dvd positive whole)
    have early : ∃ e d, 0 ≤ e ∧ onGrid? tie units e = some d ∧ decimal tie units = d.trim := by
      rcases Nat.lt_or_ge length 418 with near | far
      · -- then the grid of whole numbers is tried
        have tried : topOf units - ((length - 401 : Nat) + 1) = 0 := by omega
        obtain ⟨e, d, first, found, same⟩ :=
          decimal_of_isSome (n := length - 401) (by omega) (tried ▸ isSome_onGrid?_whole tie positive whole)
        exact ⟨e, d, by omega, found, same⟩
      · obtain ⟨e, d, first, found, same⟩ := decimal_of_isSome (n := 16) (by decide) always
        exact ⟨e, d, by omega, found, same⟩
    obtain ⟨e, d, noFraction, found, same⟩ := early
    obtain ⟨rfl, -⟩ := onGrid?_inside found
    rw [same]
    rcases d.trim_cases with ⟨-, trimmed⟩ | ⟨zeros, -, exponent⟩
    · rw [trimmed]
    · rw [exponent]
      omega

end Shortest

namespace Binary64

/-- That a number has no more bits than a double. -/
inductive Held : Binary64 → Prop
  | nan : Held .nan
  | infinite {negative : Bool} : Held (.infinite negative)
  | finite {negative : Bool} {units : Nat} (fits : BinaryGrid.double.Holds units) : Held (.finite negative units)

/-- Whether a number is whole, which the infinite ones are not. -/
def isWhole : Binary64 → Bool
  | .finite _ units => decide (2 ^ BinaryGrid.double.unitPower ∣ units)
  | _ => false

theorem held_ofQuotientOn (negative : Bool) (num : Nat) {den : Nat} (positive : 0 < den) :
    (ofQuotientOn .double negative num den).Held := by
  have rounded : BinaryGrid.double.Holds (BinaryGrid.double.round num den) :=
    BinaryGrid.holds_round (by decide) positive
  unfold ofQuotientOn
  dsimp only
  -- the limit is too large to be computed
  generalize BinaryGrid.double.round num den = units at rounded ⊢
  generalize BinaryGrid.double.limit = limit
  rw [Nat.sub_self, Nat.pow_eq, Nat.pow_zero, Nat.mul_one]
  split
  · exact .finite rounded
  · exact .infinite

end Binary64

/-- A decimal is read as a number of the format. -/
theorem Decimal.held_toBinary64 (negative : Bool) (d : Decimal) : (d.toBinary64 negative).Held := by
  unfold toBinary64 toBinary64On
  split
  · exact .finite (Nat.dvd_zero _)
  split
  · exact .infinite
  split
  · exact Binary64.held_ofQuotientOn negative _ Nat.one_pos
  · exact Binary64.held_ofQuotientOn negative _ (Nat.pow_pos (Nat.succ_pos 9))

namespace NumberStyle

theorem positionalText_wholeEnd (style : NumberStyle) (d : Decimal) :
    style.positionalText d =
      { style with wholeEnd := "" }.positionalText d ++ if 0 ≤ d.exponent then style.wholeEnd else "" := by
  unfold positionalText
  dsimp only
  split
  · rw [String.append_empty]
  · rw [String.append_empty]

/-- Where all numbers are written positionally, the end of whole numbers stands behind those that are whole. -/
theorem write_wholeEnd {style : NumberStyle} (positional : style.positional = none) {x : Binary64} (held : x.Held) :
    style.write x = { style with wholeEnd := "" }.write x ++ if x.isWhole then style.wholeEnd else "" := by
  cases held with
  | nan => exact String.append_empty.symm
  | infinite => exact String.append_empty.symm
  | @finite negative units fits =>
    have magnitudes : style.magnitude units =
        { style with wholeEnd := "" }.magnitude units ++
          if 2 ^ BinaryGrid.double.unitPower ∣ units then style.wholeEnd else "" := by
      have always (d : Decimal) : style.isPositional d = true := by
        rw [isPositional, positional]
      have still (d : Decimal) : { style with wholeEnd := "" }.isPositional d = true := always d
      unfold magnitude
      by_cases zero : units = 0
      · rw [if_pos zero, if_pos zero, if_pos (zero ▸ Nat.dvd_zero _), String.append_empty]
      · have whole := Shortest.exponent_decimal style.tie (Nat.pos_of_ne_zero zero) fits
        rw [if_neg zero, if_neg zero]
        dsimp only
        rw [if_pos (always _), if_pos (still _), positionalText_wholeEnd]
        simp only [whole]
    rw [write, write, magnitudes, String.append_assoc, Binary64.isWhole]
    simp only [decide_eq_true_eq]

end NumberStyle

end TextTemplate
