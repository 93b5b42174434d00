import TextTemplate.Proofs.Code.Simulation
import TextTemplate.Proofs.Value.Comparison

/-!
The answers of the six comparison operators when the machine compares two operands. Equality is answered
for any two values; the ordering operators refuse values that are neither absent nor of one ordered kind.
-/
namespace TextTemplate.Machine

variable {a b : Value} {operator : Instruction} {test : Ordering → Bool}

/-- The ordering operators, and what each asks of the order of its operands. -/
inductive Asks : Instruction → (Ordering → Bool) → Prop
  | lt : Asks .lt Ordering.isLT
  | lte : Asks .lte Ordering.isLE
  | gt : Asks .gt Ordering.isGT
  | gte : Asks .gte Ordering.isGE

/-- Wherever the machine meets the operator, it goes on with the answer in place of the operands. -/
def Answers (operator : Instruction) (a b : Value) (answer : Bool) : Prop :=
  ∀ (scene : Scene) (nested : Nested) (pc : Nat) (stack : List Value) (sink : Sink),
    execute scene nested pc (b :: a :: stack) sink operator = .goto (pc + 1) (.bool answer :: stack) sink

/-- Wherever the machine meets the operator, it stops with an execution error about the operands. -/
def Refuses (operator : Instruction) (a b : Value) : Prop :=
  ∀ (scene : Scene) (nested : Nested) (pc : Nat) (stack : List Value) (sink : Sink),
    ∃ failure : Failure, execute scene nested pc (b :: a :: stack) sink operator = .failed sink failure ∧
      failure.kind = .executionError ∧ failure.fault.problem = .incomparable a.kind b.kind

theorem answers_eq (a b : Value) : Answers .eq a b (a.same b) :=
  fun _ _ _ _ _ => rfl

theorem answers_ne (a b : Value) : Answers .ne a b (!a.same b) :=
  fun _ _ _ _ _ => rfl

theorem Asks.answers (asks : Asks operator test) {order : Option Ordering} (ordered : ordering a b = .ok order) :
    Answers operator a b (holds test order) := by
  intro scene nested pc stack sink
  cases asks <;> simp only [execute, ordered]

theorem Asks.refuses (asks : Asks operator test) (refused : ordering a b = .error (.incomparable a.kind b.kind)) :
    Refuses operator a b := by
  intro scene nested pc stack sink
  have same := (located_alike scene pc (.ofProblem (.incomparable a.kind b.kind))).problem
  refine ⟨located scene pc (.ofProblem (.incomparable a.kind b.kind)), ?_, congrArg Problem.kind same, same⟩
  cases asks <;> simp only [execute, refused]

/-- Values that have an order: two texts, or two numbers that are numbers. -/
def Comparable (a b : Value) : Prop :=
  (∃ s t, a = .str s ∧ b = .str t) ∨
    (a.kind = .number ∧ a ≠ .float .nan) ∧ b.kind = .number ∧ b ≠ .float .nan

/-- Two numbers of which one is none. -/
def WithNaN (a b : Value) : Prop :=
  a.kind = .number ∧ b.kind = .number ∧ (a = .float .nan ∨ b = .float .nan)

theorem Comparable.compare? (comparable : Comparable a b) : ∃ order, a.compare? b = some order := by
  obtain ⟨s, t, rfl, rfl⟩ | ⟨⟨left, leftFree⟩, right, rightFree⟩ := comparable
  · exact ⟨_, rfl⟩
  · exact Value.compare?_of_numbers left right leftFree rightFree

theorem ordering_absent (absent : a.isAbsent = true ∨ b.isAbsent = true) : ordering a b = .ok none := by
  rw [ordering, if_pos (Bool.or_eq_true_iff.mpr absent)]

theorem ordering_compare? {order : Ordering} (found : a.compare? b = some order) : ordering a b = .ok (some order) := by
  have present : (a.isAbsent || b.isAbsent) = false := by
    obtain ⟨s, t, rfl, rfl⟩ | ⟨left, right⟩ := Value.kinds_of_compare? found
    · rfl
    · rw [Value.isAbsent_of_number left, Value.isAbsent_of_number right]
      rfl
  simp only [ordering, present, Bool.false_eq_true, if_false, found]

theorem ordering_withNaN (withNaN : WithNaN a b) : ordering a b = .ok none := by
  obtain ⟨left, right, nan⟩ := withNaN
  unfold ordering
  split
  · rfl
  · rw [Value.compare?_of_nan left nan]
    exact if_pos ⟨left, right⟩

theorem ordering_refused (present : a.isAbsent = false ∧ b.isAbsent = false) (apart : ¬Comparable a b)
    (nanFree : ¬WithNaN a b) : ordering a b = .error (.incomparable a.kind b.kind) := by
  have numbers : ¬(a.kind = .number ∧ b.kind = .number) := by
    rintro ⟨left, right⟩
    refine apart (.inr ⟨⟨left, fun nan => nanFree ⟨left, right, .inl nan⟩⟩, right, fun nan => ?_⟩)
    exact nanFree ⟨left, right, .inr nan⟩
  have unordered : a.compare? b = none := by
    refine Option.eq_none_iff_forall_ne_some.mpr fun order found => ?_
    obtain texts | both := Value.kinds_of_compare? found
    · exact apart (.inl texts)
    · exact numbers both
  unfold ordering
  rw [present.1, present.2, unordered]
  exact if_neg numbers

/-- Where two values have an order, one of the three ways holds, and the other operators follow from
those. -/
theorem comparable_answers (comparable : Comparable a b) :
    ∃ less equal greater : Bool,
      (Answers .lt a b less ∧ Answers .eq a b equal ∧ Answers .gt a b greater) ∧
        [less, equal, greater].count true = 1 ∧
        (Answers .lte a b !greater ∧ Answers .gte a b !less) ∧
        Answers .gt b a less ∧ Answers .lt b a greater := by
  obtain ⟨order, found⟩ := comparable.compare?
  have forward := ordering_compare? found
  have backward := ordering_compare? (Value.compare?_swap found)
  have equality : Answers .eq a b (order == .eq) := Value.same_of_compare? found ▸ answers_eq a b
  refine ⟨order.isLT, order == .eq, order.isGT, ⟨Asks.lt.answers forward, equality, Asks.gt.answers forward⟩,
    by cases order <;> rfl, ⟨?_, ?_⟩, ?_, ?_⟩
  · have negated : (!order.isGT) = order.isLE := by cases order <;> rfl
    exact negated ▸ Asks.lte.answers forward
  · have negated : (!order.isLT) = order.isGE := by cases order <;> rfl
    exact negated ▸ Asks.gte.answers forward
  · have turned : order.isLT = order.swap.isGT := Ordering.isGT_swap.symm
    exact turned ▸ Asks.gt.answers backward
  · have turned : order.isGT = order.swap.isLT := Ordering.isLT_swap.symm
    exact turned ▸ Asks.lt.answers backward

/-- The comparison operators form one order. With an absent operand every ordering operator answers false;
two values that have an order are in exactly one of three ways, from both sides; no number is ordered or
equal to what is none; all other operands are refused; and inequality is never equality. -/
theorem comparisons_cohere (a b : Value) :
    (a.isAbsent = true ∨ b.isAbsent = true → ∀ operator test, Asks operator test → Answers operator a b false) ∧
      (Comparable a b → ∃ less equal greater : Bool,
        (Answers .lt a b less ∧ Answers .eq a b equal ∧ Answers .gt a b greater) ∧
          [less, equal, greater].count true = 1 ∧
          (Answers .lte a b !greater ∧ Answers .gte a b !less) ∧
          Answers .gt b a less ∧ Answers .lt b a greater) ∧
      (WithNaN a b → (∀ operator test, Asks operator test → Answers operator a b false) ∧ Answers .eq a b false) ∧
      (¬(a.isAbsent = true ∨ b.isAbsent = true) → ¬Comparable a b → ¬WithNaN a b →
        ∀ operator test, Asks operator test → Refuses operator a b) ∧
      ∃ equal, Answers .eq a b equal ∧ Answers .ne a b !equal := by
  refine ⟨fun absent operator test asks => asks.answers (ordering_absent absent), comparable_answers,
    fun withNaN => ⟨fun operator test asks => asks.answers (ordering_withNaN withNaN), ?_⟩,
    fun present apart nanFree operator test asks => ?_, a.same b, answers_eq a b, answers_ne a b⟩
  · exact Value.same_of_nan withNaN.1 withNaN.2.2 ▸ answers_eq a b
  · rw [not_or, Bool.not_eq_true, Bool.not_eq_true] at present
    exact asks.refuses (ordering_refused present apart nanFree)

theorem comparisons_cohere_kinds :
    (Value.none.isAbsent = true ∧ Answers .lte .none (.int 1) false) ∧
      (Comparable (.int 9007199254740993) (.float (.ofInt 9007199254740992)) ∧ ∃ less equal greater : Bool,
        (Answers .lt (.int 9007199254740993) (.float (.ofInt 9007199254740992)) less ∧
          Answers .eq (.int 9007199254740993) (.float (.ofInt 9007199254740992)) equal ∧
          Answers .gt (.int 9007199254740993) (.float (.ofInt 9007199254740992)) greater) ∧
          [less, equal, greater].count true = 1) ∧
      (WithNaN (.int 1) (.float .nan) ∧ Answers .gte (.int 1) (.float .nan) false) ∧
      ¬Comparable (.str "1") (.int 1) ∧ Refuses .gt (.str "1") (.int 1) := by
  have numbers : Comparable (.int 9007199254740993) (.float (.ofInt 9007199254740992)) :=
    .inr ⟨⟨rfl, nofun⟩, rfl, fun nan => absurd (Value.float.inj nan) (by decide +kernel)⟩
  have nan : WithNaN (.int 1) (.float .nan) := ⟨rfl, rfl, .inr rfl⟩
  have apart : ¬Comparable (.str "1") (.int 1) := by
    rintro (⟨_, _, -, ⟨⟩⟩ | ⟨⟨⟨⟩, -⟩, -⟩)
  obtain ⟨less, equal, greater, answers, once, -⟩ := (comparisons_cohere _ _).2.1 numbers
  refine ⟨⟨rfl, (comparisons_cohere .none (.int 1)).1 (.inl rfl) _ _ .lte⟩,
    ⟨numbers, less, equal, greater, answers, once⟩, ⟨nan, ((comparisons_cohere _ _).2.2.1 nan).1 _ _ .gte⟩, apart, ?_⟩
  exact (comparisons_cohere (.str "1") (.int 1)).2.2.2.1 (by decide) apart (by rintro ⟨⟨⟩, -⟩) _ _ .gt

end TextTemplate.Machine
