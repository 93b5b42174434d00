import TextTemplate.Proofs.Evaluation
import TextTemplate.Proofs.Value.Comparison

/-!
Where comparisons chain. Two integers are compared as they are, an integer and a float on the line of
floats, where different integers may share a place. So a chain of equal values can join two different
integers by a float between them, and does so nowhere else, nor does a chain of ordered ones.
-/
namespace TextTemplate.Value

open Binary64

variable {a b c : Value}

/-- Whether `a <= b` is true in a template. -/
def AtMost (a b : Value) : Prop :=
  tested Ordering.isLE a b = .ok (.bool true)

/-- Two different integers and a float that is equal to either. -/
structure Between (i : Int) (x : Binary64) (j : Int) : Prop where
  differ : i ≠ j
  left : sameNumber (.int i) (.float x) = true
  right : sameNumber (.float x) (.int j) = true

/-- Somewhere in the first and the last of three values stand two different integers, and a float in
the one between. -/
inductive Parted : Value → Value → Value → Prop
  | number {i j : Int} (x : Binary64) (differ : i ≠ j) : Parted (.int i) (.float x) (.int j)
  | item {as bs cs : List Value} {a b c : Value} (n : Nat) (first : as[n]? = some a) (second : bs[n]? = some b)
    (third : cs[n]? = some c) (parted : Parted a b c) : Parted (.seq as) (.seq bs) (.seq cs)
  | entry {as bs cs : List (String × Value)} {a b c : Value} (name : String) (first : (name, a) ∈ as)
    (second : bs.lookup name = some b) (third : cs.lookup name = some c) (parted : Parted a b c) :
    Parted (.map as) (.map bs) (.map cs)

section Equality

/-- Chains of equal numbers end in equal ones unless a float joins two integers. -/
theorem same_trans_number (number : a.kind = .number) (ab : a.same b = true) (bc : b.same c = true) :
    a.same c = true ↔ ¬Parted a b c := by
  rw [same_number number] at ab ⊢
  have middle : b.kind = .number := (kinds_of_sameNumber ab).2
  rw [same_number middle] at bc
  by_cases integers : AreIntegers a c
  · obtain ⟨i, j, rfl, rfl⟩ := integers
    rw [sameNumber_int]
    cases b with
    | int k =>
      obtain rfl := sameNumber_int.mp ab
      obtain rfl := sameNumber_int.mp bc
      exact iff_of_true rfl nofun
    | float x =>
      constructor
      · rintro rfl parted
        cases parted with
        | number _ differ => exact differ rfl
      · intro joined
        by_contra differ
        exact joined (.number x differ)
    | _ => cases middle
  · obtain ⟨p, left, place⟩ := place?_of_sameNumber ab
    obtain ⟨q, place', right⟩ := place?_of_sameNumber bc
    obtain rfl : p = q := Option.some.inj (place.symm.trans place')
    refine iff_of_true ((sameNumber_iff_place? integers).mpr ⟨p, left, right⟩) fun parted => ?_
    cases parted with
    | number => exact integers ⟨_, _, rfl, rfl⟩
    | item | entry => cases number

theorem same_trans_simple (seq : a.kind ≠ .seq) (map : a.kind ≠ .map) (ab : a.same b = true) (bc : b.same c = true) :
    a.same c = true ↔ ¬Parted a b c := by
  cases a with
  | undefined | none =>
    rw [same_absent rfl] at ab ⊢
    rw [same_absent ab] at bc
    exact iff_of_true bc nofun
  | bool =>
    rw [same_bool] at ab
    subst ab
    exact iff_of_true bc nofun
  | str =>
    rw [same_str] at ab
    subst ab
    exact iff_of_true bc nofun
  | int | float => exact same_trans_number rfl ab bc
  | seq => exact absurd rfl seq
  | map => exact absurd rfl map

/-- Equality goes on from one value to the next unless a float joins two integers. -/
theorem same_trans (ab : a.same b = true) (bc : b.same c = true) : a.same c = true ↔ ¬Parted a b c := by
  induction a using Value.induction generalizing b c with
  | simple a seq map => exact same_trans_simple seq map ab bc
  | seq as ih =>
    obtain ⟨bs, rfl, first⟩ := same_seq.mp ab
    obtain ⟨cs, rfl, second⟩ := same_seq.mp bc
    rw [List.forall₂_iff_get] at first second
    obtain ⟨length, first⟩ := first
    obtain ⟨length', second⟩ := second
    constructor
    · intro ac parted
      obtain ⟨_, ⟨⟩, last⟩ := same_seq.mp ac
      cases parted with
      | item n foundA foundB foundC parted =>
        obtain ⟨inA, rfl⟩ := List.getElem?_eq_some_iff.mp foundA
        obtain ⟨inB, rfl⟩ := List.getElem?_eq_some_iff.mp foundB
        obtain ⟨inC, rfl⟩ := List.getElem?_eq_some_iff.mp foundC
        exact (ih _ (List.getElem_mem inA) (first n inA inB) (second n inB inC)).mp
          ((List.forall₂_iff_get.mp last).2 n inA inC) parted
    · intro joined
      refine same_seq.mpr ⟨cs, rfl, List.forall₂_iff_get.mpr ⟨length.trans length', fun n inA inC => ?_⟩⟩
      have inB : n < bs.length := length ▸ inA
      refine (ih _ (List.getElem_mem inA) (first n inA inB) (second n inB inC)).mpr fun parted => joined ?_
      exact .item n (List.getElem?_eq_getElem inA) (List.getElem?_eq_getElem inB) (List.getElem?_eq_getElem inC) parted
  | map as ih =>
    obtain ⟨bs, rfl, length, first⟩ := same_map.mp ab
    obtain ⟨cs, rfl, length', second⟩ := same_map.mp bc
    constructor
    · intro ac parted
      obtain ⟨_, ⟨⟩, -, last⟩ := same_map.mp ac
      cases parted with
      | entry name foundA foundB foundC parted =>
        obtain ⟨_, foundB', equal⟩ := first _ foundA
        obtain rfl := Option.some.inj (foundB.symm.trans foundB')
        obtain ⟨_, foundC', equal'⟩ := second _ (mem_of_lookup foundB)
        obtain rfl := Option.some.inj (foundC.symm.trans foundC')
        obtain ⟨_, foundC'', equal''⟩ := last _ foundA
        obtain rfl := Option.some.inj (foundC.symm.trans foundC'')
        exact (ih _ foundA equal equal').mp equal'' parted
    · intro joined
      refine same_map.mpr ⟨cs, rfl, length.trans length', fun entry foundA => ?_⟩
      obtain ⟨b, foundB, equal⟩ := first _ foundA
      obtain ⟨c, foundC, equal'⟩ := second _ (mem_of_lookup foundB)
      exact ⟨c, foundC, (ih _ foundA equal equal').mpr fun parted => joined (.entry _ foundA foundB foundC parted)⟩

end Equality

section Order

theorem atMost_iff : AtMost a b ↔ ∃ order, a.compare? b = some order ∧ order.isLE = true := by
  unfold AtMost tested Machine.ordering
  by_cases absent : (a.isAbsent || b.isAbsent) = true
  · rw [if_pos absent]
    refine iff_of_false nofun ?_
    rintro ⟨order, found, -⟩
    obtain ⟨s, t, rfl, rfl⟩ | ⟨left, right⟩ := kinds_of_compare? found
    · cases absent
    · rw [isAbsent_of_number left, isAbsent_of_number right] at absent
      cases absent
  · rw [if_neg absent]
    cases found : a.compare? b with
    | none =>
      dsimp only
      split <;> exact iff_of_false nofun nofun
    | some order =>
      simp only [Except.map, Machine.holds, Option.map_some, Option.getD_some, Except.ok.injEq, bool.injEq,
        Option.some.injEq, exists_eq_left']

theorem atMost_str {s t : String} : AtMost (.str s) (.str t) ↔ (compare s t).isLE = true := by
  simp only [atMost_iff, compare?, Option.some.injEq, exists_eq_left']

theorem atMost_int {i j : Int} : AtMost (.int i) (.int j) ↔ i ≤ j := by
  simp only [atMost_iff, compare?, Option.some.injEq, exists_eq_left', Std.isLE_compare]

/-- Two numbers of which one is a float are ordered as their places. -/
theorem atMost_iff_place? (number : a.kind = .number) (rounded : ¬AreIntegers a b) :
    AtMost a b ↔ ∃ p q, a.place? = some p ∧ b.place? = some q ∧ p ≤ q := by
  rw [atMost_iff, compare?_places number rounded]
  cases a.place? with
  | none => simp
  | some p =>
    cases b.place? with
    | none => simp
    | some q => simp [Std.isLE_compare]

/-- Ordered numbers stand in their order on the line of floats, also if both are integers. -/
theorem places_of_atMost (number : a.kind = .number) (ordered : AtMost a b) :
    ∃ p q, a.place? = some p ∧ b.place? = some q ∧ p ≤ q := by
  by_cases integers : AreIntegers a b
  · obtain ⟨i, j, rfl, rfl⟩ := integers
    rw [place?_int, place?_int]
    exact place?_ofInt_mono (atMost_int.mp ordered)
  · exact (atMost_iff_place? number integers).mp ordered

theorem Between.place? {i j : Int} {x : Binary64} (between : Between i x j) :
    ∃ p, (ofInt i).place? = some p ∧ (ofInt j).place? = some p := by
  obtain ⟨p, left, middle⟩ := place?_of_sameNumber between.left
  obtain ⟨q, middle', right⟩ := place?_of_sameNumber between.right
  obtain rfl : p = q := Option.some.inj (middle.symm.trans middle')
  exact ⟨p, place?_int i ▸ left, place?_int j ▸ right⟩

/-- An integer that shares its place with another one has more bits than a float. -/
theorem large_of_place? {i j p : Int} (differ : i ≠ j) (left : (ofInt i).place? = some p)
    (right : (ofInt j).place? = some p) : 2 ^ BinaryGrid.double.precision ≤ i.natAbs := by
  by_contra small
  have unmoved (k : Int) (inside : k.natAbs ≤ 2 ^ BinaryGrid.double.precision) := place?_ofInt_small inside
  have mono (m n q r : Int) (le : m ≤ n) (first : (ofInt m).place? = some q) (second : (ofInt n).place? = some r) :
      q ≤ r := by
    obtain ⟨q', r', first', second', order⟩ := place?_ofInt_mono le
    rwa [Option.some.inj (first.symm.trans first'), Option.some.inj (second.symm.trans second')]
  have unit : (0 : Int) < (2 ^ BinaryGrid.double.unitPower : Nat) :=
    Int.natCast_pos.mpr (Nat.two_pow_pos _)
  generalize (2 ^ BinaryGrid.double.unitPower : Nat) = u at unmoved unit
  generalize 2 ^ BinaryGrid.double.precision = bound at unmoved small
  obtain rfl := Option.some.inj ((unmoved i (by omega)).symm.trans left)
  obtain within | above | below : j.natAbs ≤ bound ∨ (bound : Int) < j ∨ j < -bound := by omega
  · have same := Option.some.inj ((unmoved j within).symm.trans right)
    exact differ (Int.eq_of_mul_eq_mul_right unit.ne' same.symm)
  · have le := mono bound j _ _ above.le (unmoved bound (by omega)) right
    have := Int.le_of_mul_le_mul_right le unit
    omega
  · have le := mono j (-bound) _ _ below.le right (unmoved (-bound) (by omega))
    have := Int.le_of_mul_le_mul_right le unit
    omega

/-- Order goes on from one value to the next unless a float joins a greater integer to a smaller one. -/
theorem atMost_trans (ab : AtMost a b) (bc : AtMost b c) :
    AtMost a c ↔ ¬∃ i x j, a = .int i ∧ b = .float x ∧ c = .int j ∧ j < i ∧ Between i x j := by
  obtain ⟨order, compared, le⟩ := atMost_iff.mp ab
  obtain ⟨s, t, rfl, rfl⟩ | ⟨number, middle⟩ := kinds_of_compare? compared
  · obtain ⟨order', compared', le'⟩ := atMost_iff.mp bc
    obtain ⟨t', u, ⟨⟩, rfl⟩ | ⟨⟨⟩, -⟩ := kinds_of_compare? compared'
    rw [atMost_str] at ab bc ⊢
    exact iff_of_true (Std.TransOrd.isLE_trans ab bc) nofun
  obtain ⟨p, q, left, place, first⟩ := places_of_atMost number ab
  obtain ⟨q', r, place', right, second⟩ := places_of_atMost middle bc
  obtain rfl : q = q' := Option.some.inj (place.symm.trans place')
  by_cases integers : AreIntegers a c
  · obtain ⟨i, j, rfl, rfl⟩ := integers
    rw [atMost_int]
    cases b with
    | int k => exact iff_of_true ((atMost_int.mp ab).trans (atMost_int.mp bc)) nofun
    | float x =>
      constructor
      · rintro le ⟨_, _, _, ⟨⟩, -, ⟨⟩, less, -⟩
        omega
      · intro joined
        by_contra greater
        obtain ⟨r', p', right', left', third⟩ := place?_ofInt_mono (show j ≤ i by omega)
        obtain rfl : p = p' := Option.some.inj (left.symm.trans ((place?_int i).trans left'))
        obtain rfl : r = r' := Option.some.inj (right.symm.trans ((place?_int j).trans right'))
        obtain rfl : p = q := by omega
        obtain rfl : p = r := by omega
        refine joined ⟨i, x, j, rfl, rfl, rfl, by omega, by omega, ?_, ?_⟩
        · exact (sameNumber_iff_place? (by rintro ⟨_, _, -, ⟨⟩⟩)).mpr ⟨p, left, place⟩
        · exact (sameNumber_iff_place? (by rintro ⟨_, _, ⟨⟩, -⟩)).mpr ⟨p, place, right⟩
    | _ => cases middle
  · refine iff_of_true ((atMost_iff_place? number integers).mpr ⟨p, r, left, right, first.trans second⟩) ?_
    rintro ⟨i, -, j, rfl, -, rfl, -⟩
    exact integers ⟨i, j, rfl, rfl⟩

end Order

/-- Comparisons of values, texts and numbers go on from one to the next, at any depth and for numbers of
any magnitude, except where a float joins two different integers. It joins only integers of at least
2^53 in magnitude, which floats do not hold exactly. -/
theorem comparisons_chain :
    (∀ a b c : Value, a.same b = true → b.same c = true → (a.same c = true ↔ ¬Parted a b c)) ∧
      (∀ a b c : Value, AtMost a b → AtMost b c →
        (AtMost a c ↔ ¬∃ i x j, a = .int i ∧ b = .float x ∧ c = .int j ∧ j < i ∧ Between i x j)) ∧
      ∀ (i j : Int) (x : Binary64), Between i x j → 2 ^ 53 ≤ i.natAbs ∧ 2 ^ 53 ≤ j.natAbs := by
  refine ⟨fun a b c => same_trans, fun a b c => atMost_trans, fun i j x between => ?_⟩
  obtain ⟨p, left, right⟩ := between.place?
  exact ⟨large_of_place? between.differ left right, large_of_place? between.differ.symm right left⟩

theorem comparisons_chain_items :
    ((Value.seq [.int 2, .map [("k", .int 7)]]).same (.seq [.float (ofInt 2), .map [("k", .float (ofInt 7))]]) = true ∧
      (Value.seq [.float (ofInt 2), .map [("k", .float (ofInt 7))]]).same (.seq [.int 2, .map [("k", .int 7)]]) = true ∧
      ¬Parted (.seq [.int 2, .map [("k", .int 7)]]) (.seq [.float (ofInt 2), .map [("k", .float (ofInt 7))]])
        (.seq [.int 2, .map [("k", .int 7)]])) ∧
      (AtMost (.int 2) (.float (ofInt 3)) ∧ AtMost (.float (ofInt 3)) (.int 4) ∧
        ¬∃ i x j, Value.int 2 = .int i ∧ Value.float (ofInt 3) = .float x ∧ Value.int 4 = .int j ∧ j < i ∧
          Between i x j) ∧
      Between 9007199254740993 (ofInt 9007199254740992) 9007199254740992 ∧
      2 ^ 53 ≤ (9007199254740993 : Int).natAbs := by
  have first : (Value.seq [.int 2, .map [("k", .int 7)]]).same
      (.seq [.float (ofInt 2), .map [("k", .float (ofInt 7))]]) = true := by decide +kernel
  have second : (Value.seq [.float (ofInt 2), .map [("k", .float (ofInt 7))]]).same
      (.seq [.int 2, .map [("k", .int 7)]]) = true := by decide +kernel
  have low : AtMost (.int 2) (.float (ofInt 3)) := atMost_iff.mpr ⟨.lt, by decide +kernel, rfl⟩
  have high : AtMost (.float (ofInt 3)) (.int 4) := atMost_iff.mpr ⟨.lt, by decide +kernel, rfl⟩
  have between : Between 9007199254740993 (ofInt 9007199254740992) 9007199254740992 :=
    ⟨by decide, by decide +kernel, by decide +kernel⟩
  exact ⟨⟨first, second, (comparisons_chain.1 _ _ _ first second).mp (by decide +kernel)⟩,
    ⟨low, high, (comparisons_chain.2.1 _ _ _ low high).mp (atMost_int.mpr (by decide))⟩,
    between, (comparisons_chain.2.2 _ _ _ between).1⟩

/-- The float 2^53 is equal to the integer 2^53 and to the next one, which is greater. -/
theorem comparisons_break :
    (Binary64.ofInt 9007199254740992).isNaN = false ∧
      ((Value.int 9007199254740993).same (.float (ofInt 9007199254740992)) = true ∧
        (Value.float (ofInt 9007199254740992)).same (.int 9007199254740992) = true ∧
        (Value.int 9007199254740993).same (.int 9007199254740992) = false) ∧
      AtMost (.int 9007199254740993) (.float (ofInt 9007199254740992)) ∧
      AtMost (.float (ofInt 9007199254740992)) (.int 9007199254740992) ∧
      ¬AtMost (.int 9007199254740993) (.int 9007199254740992) :=
  ⟨by decide +kernel, ⟨by decide +kernel, by decide +kernel, by decide +kernel⟩,
    atMost_iff.mpr ⟨.eq, by decide +kernel, rfl⟩, atMost_iff.mpr ⟨.eq, by decide +kernel, rfl⟩,
    fun ordered => absurd (atMost_int.mp ordered) (by decide)⟩

end TextTemplate.Value
