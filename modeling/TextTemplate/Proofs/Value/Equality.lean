import Mathlib.Data.List.Forall2
import TextTemplate.Proofs.Decimal.Rounding
import TextTemplate.Proofs.Results
import TextTemplate.Value.Order

/-!
Equality of values, one law for each kind of value. Absent values are equal to absent ones, containers
are equal where their parts are, and numbers are equal in one place of the line of floats, except that
two integers are compared as they are.
-/
namespace TextTemplate

/-- Floats are equal in one place of the line. -/
theorem Binary64.sameNumber_iff {x y : Binary64} :
    x.sameNumber y = true ↔ ∃ p, x.place? = some p ∧ y.place? = some p := by
  unfold sameNumber compare?
  cases x.place? with
  | none => simp
  | some p =>
    cases y.place? with
    | none => simp
    | some q => simpa using eq_comm

namespace Value

variable {a b c : Value}

/-- Induction over values: what holds of a container if it holds of its parts holds of every value. -/
@[elab_as_elim]
theorem induction {motive : Value → Prop} (simple : ∀ v : Value, v.kind ≠ .seq → v.kind ≠ .map → motive v)
    (seq : ∀ items : List Value, (∀ item ∈ items, motive item) → motive (.seq items))
    (map : ∀ entries : List (String × Value), (∀ entry ∈ entries, motive entry.2) → motive (.map entries))
    (v : Value) : motive v :=
  match v with
  | .seq items => seq items fun item found =>
    have := List.sizeOf_lt_of_mem found
    induction simple seq map item
  | .map entries => map entries fun (name, value) found =>
    have := List.sizeOf_lt_of_mem found
    have : sizeOf value < sizeOf (name, value) := by
      rw [Prod.mk.sizeOf_spec]
      omega
    induction simple seq map value
  | .undefined | .none | .bool _ | .int _ | .float _ | .str _ =>
    simple _ (fun same => nomatch same) (fun same => nomatch same)
termination_by v

theorem same_absent (absent : a.isAbsent = true) (b : Value) : a.same b = b.isAbsent := by
  cases a with
  | undefined | none => rfl
  | _ => cases absent

theorem same_number (number : a.kind = .number) (b : Value) : a.same b = sameNumber a b := by
  cases a with
  | int | float => rfl
  | _ => cases number

theorem kind_of_asFloat? {x : Binary64} (found : a.asFloat? = some x) : a.kind = .number := by
  cases a with
  | int | float => rfl
  | _ => cases found

/-- Only numbers are equal as numbers. -/
theorem kinds_of_sameNumber (equal : sameNumber a b = true) : a.kind = .number ∧ b.kind = .number := by
  unfold sameNumber at equal
  split at equal
  · rename_i i j left right
    cases a <;> cases left
    cases b <;> cases right
    exact ⟨rfl, rfl⟩
  · split at equal
    · rename_i x y left right
      exact ⟨kind_of_asFloat? left, kind_of_asFloat? right⟩
    · cases equal

/-- Values of different kinds are compared as if they were numbers. -/
theorem same_of_kinds (present : a.isAbsent = false) (kinds : a.kind ≠ b.kind) : a.same b = sameNumber a b := by
  cases a with
  | undefined | none => cases present
  | int | float => rfl
  | bool | str | seq | map =>
    cases b <;> first
      | rfl
      | exact absurd rfl kinds

/-- Equal values are both absent or of one kind. -/
theorem kinds_of_same (equal : a.same b = true) : a.isAbsent = true ∧ b.isAbsent = true ∨ a.kind = b.kind := by
  cases absent : a.isAbsent with
  | true =>
    rw [same_absent absent] at equal
    exact .inl ⟨rfl, equal⟩
  | false =>
    refine .inr (Decidable.byContradiction fun kinds => kinds ?_)
    rw [same_of_kinds absent kinds] at equal
    obtain ⟨left, right⟩ := kinds_of_sameNumber equal
    exact left.trans right.symm

theorem same_bool {x : Bool} : (Value.bool x).same b = true ↔ b = .bool x := by
  constructor
  · intro equal
    obtain ⟨absent, -⟩ | kinds := kinds_of_same equal
    · cases absent
    · cases b <;> cases kinds
      rw [eq_of_beq (a := x) equal]
  · rintro rfl
    exact beq_self_eq_true x

theorem same_str {s : String} : (Value.str s).same b = true ↔ b = .str s := by
  constructor
  · intro equal
    obtain ⟨absent, -⟩ | kinds := kinds_of_same equal
    · cases absent
    · cases b <;> cases kinds
      rw [eq_of_beq (a := s) equal]
  · rintro rfl
    exact beq_self_eq_true s

theorem sameItems_iff {as bs : List Value} :
    sameItems as bs = true ↔ List.Forall₂ (fun a b => a.same b = true) as bs := by
  induction as generalizing bs with
  | nil => cases bs <;> simp [sameItems]
  | cons a as ih => cases bs <;> simp [sameItems, ih]

theorem same_seq {as : List Value} :
    (Value.seq as).same b = true ↔ ∃ bs, b = .seq bs ∧ List.Forall₂ (fun a b => a.same b = true) as bs := by
  constructor
  · intro equal
    obtain ⟨absent, -⟩ | kinds := kinds_of_same equal
    · cases absent
    · cases b <;> cases kinds
      exact ⟨_, rfl, sameItems_iff.mp equal⟩
  · rintro ⟨bs, rfl, equal⟩
    exact sameItems_iff.mpr equal

theorem sameEntries_iff {as bs : List (String × Value)} :
    sameEntries as bs = true ↔ ∀ entry ∈ as, ∃ b, bs.lookup entry.1 = some b ∧ entry.2.same b = true := by
  induction as with
  | nil => simp [sameEntries]
  | cons entry as ih =>
    obtain ⟨name, a⟩ := entry
    cases found : bs.lookup name with
    | none => simp [sameEntries, found]
    | some b => simp [sameEntries, found, ih]

theorem same_map {as : List (String × Value)} :
    (Value.map as).same b = true ↔ ∃ bs, b = .map bs ∧ as.length = bs.length ∧
      ∀ entry ∈ as, ∃ b, bs.lookup entry.1 = some b ∧ entry.2.same b = true := by
  constructor
  · intro equal
    obtain ⟨absent, -⟩ | kinds := kinds_of_same equal
    · cases absent
    · cases b <;> cases kinds
      obtain ⟨length, equal⟩ := Bool.and_eq_true_iff.mp equal
      exact ⟨_, rfl, eq_of_beq length, sameEntries_iff.mp equal⟩
  · rintro ⟨bs, rfl, length, equal⟩
    exact Bool.and_eq_true_iff.mpr ⟨beq_iff_eq.mpr length, sameEntries_iff.mpr equal⟩

/-- The place of a number on the line of floats, to which integers are rounded. -/
def place? (v : Value) : Option Int :=
  v.asFloat?.bind Binary64.place?

/-- Whether two values are integers, which are compared without rounding. -/
def AreIntegers (a b : Value) : Prop :=
  ∃ i j, a = .int i ∧ b = .int j

theorem place?_int (i : Int) : (Value.int i).place? = (Binary64.ofInt i).place? := by
  rw [place?, asFloat?, Option.bind_some]

theorem sameNumber_int {i j : Int} : sameNumber (.int i) (.int j) = true ↔ i = j := by
  simp only [sameNumber, asInt?, beq_iff_eq]

/-- Two numbers of which one is a float are equal in one place. -/
theorem sameNumber_iff_place? (rounded : ¬AreIntegers a b) :
    sameNumber a b = true ↔ ∃ p, a.place? = some p ∧ b.place? = some p := by
  unfold sameNumber place?
  split
  · rename_i i j left right
    cases a <;> cases left
    cases b <;> cases right
    exact absurd ⟨i, j, rfl, rfl⟩ rounded
  · cases a.asFloat? with
    | none => simp only [Bool.false_eq_true, Option.bind_none, reduceCtorEq, false_and, exists_false]
    | some x =>
      cases b.asFloat? with
      | none => simp only [Bool.false_eq_true, Option.bind_none, reduceCtorEq, and_false, exists_false]
      | some y => simp only [Option.bind_some, Binary64.sameNumber_iff]

/-- Numbers that are equal stand in one place, also if both are integers. -/
theorem place?_of_sameNumber (equal : sameNumber a b = true) : ∃ p, a.place? = some p ∧ b.place? = some p := by
  by_cases rounded : AreIntegers a b
  · obtain ⟨i, j, rfl, rfl⟩ := rounded
    obtain rfl := sameNumber_int.mp equal
    obtain ⟨p, -, found, -⟩ := Binary64.place?_ofInt_mono (Int.le_refl i)
    rw [← place?_int] at found
    exact ⟨p, found, found⟩
  · exact (sameNumber_iff_place? rounded).mp equal

end Value

end TextTemplate
