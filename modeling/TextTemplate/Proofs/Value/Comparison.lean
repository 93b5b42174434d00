import TextTemplate.Proofs.Value.Equality

/-!
Order of values. Two texts and two integers have their own order, and numbers otherwise that of their
places on the line of floats. The order says from either side the same, and it says of two values that
neither comes first exactly where they are equal.
-/
namespace TextTemplate.Value

variable {a b : Value} {order : Ordering}

/-- Values that have an order are two texts or two numbers. -/
theorem kinds_of_compare? (found : a.compare? b = some order) :
    (∃ s t, a = .str s ∧ b = .str t) ∨ a.kind = .number ∧ b.kind = .number := by
  unfold compare? at found
  split at found
  · exact .inl ⟨_, _, rfl, rfl⟩
  · exact .inr ⟨rfl, rfl⟩
  · split at found
    · rename_i left right
      exact .inr ⟨kind_of_asFloat? left, kind_of_asFloat? right⟩
    · cases found

theorem isAbsent_of_number (number : a.kind = .number) : a.isAbsent = false := by
  cases a <;> cases number <;> rfl

/-- Two numbers of which one is a float are ordered as their places. -/
theorem compare?_places (number : a.kind = .number) (rounded : ¬AreIntegers a b) :
    a.compare? b = a.place?.bind fun p => b.place?.map fun q => compare p q := by
  have compared : a.compare? b = a.asFloat?.bind fun x => b.asFloat?.bind fun y => x.compare? y := by
    unfold compare?
    split
    · cases number
    · exact absurd ⟨_, _, rfl, rfl⟩ rounded
    · cases a.asFloat? <;> cases b.asFloat? <;> rfl
  rw [compared]
  unfold place?
  cases a.asFloat? with
  | none => rfl
  | some x =>
    cases b.asFloat? with
    | none => cases found : x.place? <;> simp [found]
    | some y =>
      simp only [Option.bind_some, Binary64.compare?]
      cases x.place? <;> cases y.place? <;> rfl

/-- The place of a number that is one. -/
theorem place?_of_number (number : a.kind = .number) (nanFree : a ≠ .float .nan) : ∃ p, a.place? = some p := by
  cases a with
  | int i =>
    obtain ⟨p, -, found, -⟩ := Binary64.place?_ofInt_mono (Int.le_refl i)
    exact ⟨p, place?_int i ▸ found⟩
  | float x =>
    cases x with
    | nan => exact absurd rfl nanFree
    | infinite | finite => exact ⟨_, rfl⟩
  | _ => cases number

/-- Numbers that are numbers have an order. -/
theorem compare?_of_numbers (left : a.kind = .number) (right : b.kind = .number) (leftFree : a ≠ .float .nan)
    (rightFree : b ≠ .float .nan) : ∃ order, a.compare? b = some order := by
  by_cases integers : AreIntegers a b
  · obtain ⟨i, j, rfl, rfl⟩ := integers
    exact ⟨_, rfl⟩
  · obtain ⟨p, found⟩ := place?_of_number left leftFree
    obtain ⟨q, found'⟩ := place?_of_number right rightFree
    exact ⟨compare p q, by rw [compare?_places left integers, found, found']; rfl⟩

/-- What is no number has no order to any value. -/
theorem compare?_of_nan (number : a.kind = .number) (nan : a = .float .nan ∨ b = .float .nan) :
    a.compare? b = Option.none := by
  have rounded : ¬AreIntegers a b := by
    rintro ⟨i, j, rfl, rfl⟩
    exact nan.elim nofun nofun
  rw [compare?_places number rounded]
  obtain rfl | rfl := nan
  · rfl
  · cases a.place? <;> rfl

/-- From the other side the order is the other way round. -/
theorem compare?_swap (found : a.compare? b = some order) : b.compare? a = some order.swap := by
  obtain ⟨s, t, rfl, rfl⟩ | ⟨left, right⟩ := kinds_of_compare? found
  · obtain rfl := Option.some.inj found
    exact congrArg some Std.OrientedCmp.eq_swap
  · by_cases integers : AreIntegers a b
    · obtain ⟨i, j, rfl, rfl⟩ := integers
      obtain rfl := Option.some.inj found
      exact congrArg some Std.OrientedCmp.eq_swap
    · have swapped : ¬AreIntegers b a := fun ⟨j, i, first, second⟩ => integers ⟨i, j, second, first⟩
      rw [compare?_places left integers] at found
      rw [compare?_places right swapped]
      obtain ⟨p, place, found⟩ := Option.bind_eq_some_iff.mp found
      obtain ⟨q, place', rfl⟩ := Option.map_eq_some_iff.mp found
      rw [place, place']
      exact congrArg some Std.OrientedCmp.eq_swap

/-- Of two values that have an order neither comes first exactly if they are equal. -/
theorem same_of_compare? (found : a.compare? b = some order) : a.same b = (order == .eq) := by
  rw [Bool.eq_iff_iff, beq_iff_eq]
  obtain ⟨s, t, rfl, rfl⟩ | ⟨left, right⟩ := kinds_of_compare? found
  · obtain rfl := Option.some.inj found
    rw [same_str, Std.compare_eq_iff_eq, str.injEq, eq_comm]
  · rw [same_number left]
    by_cases integers : AreIntegers a b
    · obtain ⟨i, j, rfl, rfl⟩ := integers
      obtain rfl := Option.some.inj found
      rw [sameNumber_int, Std.compare_eq_iff_eq]
    · rw [compare?_places left integers] at found
      obtain ⟨p, place, found⟩ := Option.bind_eq_some_iff.mp found
      obtain ⟨q, place', rfl⟩ := Option.map_eq_some_iff.mp found
      rw [sameNumber_iff_place? integers, place, place', Std.compare_eq_iff_eq]
      exact ⟨fun ⟨_, first, second⟩ => Option.some.inj (first.trans second.symm), fun same => ⟨q, same ▸ rfl, rfl⟩⟩

/-- Numbers without an order are not equal. -/
theorem same_of_nan (number : a.kind = .number) (nan : a = .float .nan ∨ b = .float .nan) : a.same b = false := by
  rw [same_number number, Bool.eq_false_iff]
  intro equal
  obtain ⟨p, left, right⟩ := place?_of_sameNumber equal
  obtain rfl | rfl := nan
  · cases left
  · cases right

end TextTemplate.Value
