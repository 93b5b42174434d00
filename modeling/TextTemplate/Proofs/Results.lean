import Mathlib.Data.List.Forall2

/-!
Computations that end with a result or an error, taken apart, entries that are found by name, and lists that
stay related part by part.
-/
namespace TextTemplate

variable {ε α β : Type}

theorem bind_eq_ok {x : Except ε α} {f : α → Except ε β} {b : β} :
    (x >>= f) = .ok b ↔ ∃ a, x = .ok a ∧ f a = .ok b := by
  cases x <;> simp [bind, Except.bind]

theorem bind_eq_error {x : Except ε α} {f : α → Except ε β} {e : ε} :
    (x >>= f) = .error e ↔ x = .error e ∨ ∃ a, x = .ok a ∧ f a = .error e := by
  cases x <;> simp [bind, Except.bind]

theorem map_eq_ok {x : Except ε α} {f : α → β} {b : β} : x.map f = .ok b ↔ ∃ a, x = .ok a ∧ f a = b := by
  cases x <;> simp [Except.map]

theorem eq_ok_getD {x : Except ε α} (default : α) (succeeds : x.isOk = true) : x = .ok (x.toOption.getD default) := by
  cases x with
  | error e => cases succeeds
  | ok a => rfl

theorem eq_ok_of_toOption {x : Except ε α} {a : α} (same : x.toOption = some a) : x = .ok a := by
  cases x with
  | error e => cases same
  | ok b => rw [Option.some.inj same]

/-- Whether a computation has a result with some property is found by the computation itself. -/
instance decidableResult {x : Except ε α} {P : α → Prop} [DecidablePred P] : Decidable (∃ a, x = .ok a ∧ P a) :=
  match x with
  | .error _ => isFalse fun ⟨_, same, _⟩ => nomatch same
  | .ok a => decidable_of_iff (P a) ⟨fun holds => ⟨a, rfl, holds⟩, fun ⟨_, same, holds⟩ => Except.ok.inj same ▸ holds⟩

instance decidableError {x : Except ε α} {P : ε → Prop} [DecidablePred P] : Decidable (∃ e, x = .error e ∧ P e) :=
  match x with
  | .ok _ => isFalse fun ⟨_, same, _⟩ => nomatch same
  | .error e =>
    decidable_of_iff (P e) ⟨fun holds => ⟨e, rfl, holds⟩, fun ⟨_, same, holds⟩ => Except.error.inj same ▸ holds⟩

theorem lookup_cons_eq_if (key : String) (a : α) (entries : List (String × α)) (name : String) :
    List.lookup name ((key, a) :: entries) = if name = key then some a else entries.lookup name := by
  rw [List.lookup_cons]
  by_cases same : name = key
  · rw [if_pos same, beq_iff_eq.mpr same]
  · rw [if_neg same, beq_eq_false_iff_ne.mpr same]

theorem mem_of_lookup {entries : List (String × α)} {name : String} {a : α} (found : entries.lookup name = some a) :
    (name, a) ∈ entries := by
  obtain ⟨before, after, rfl, -⟩ := List.lookup_eq_some_iff.mp found
  exact List.mem_append_right before List.mem_cons_self

section Related

universe u v

variable {α : Type u} {β : Type v} {R : α → β → Prop} {as : List α} {bs : List β}

theorem forall₂_modify {f : α → α} {g : β → β} (keeps : ∀ a b, R a b → R (f a) (g b)) (related : List.Forall₂ R as bs)
    (i : Nat) : List.Forall₂ R (as.modify i f) (bs.modify i g) := by
  induction related generalizing i with
  | nil => simp
  | cons first rest ih =>
    cases i with
    | zero => exact .cons (keeps _ _ first) rest
    | succ i => exact .cons first (ih i)

theorem forall₂_getElem? (related : List.Forall₂ R as bs) (i : Nat) :
    List.Forall₂ R as[i]?.toList bs[i]?.toList := by
  induction related generalizing i with
  | nil => exact .nil
  | cons first rest ih =>
    cases i with
    | zero => exact .cons first .nil
    | succ i => exact ih i

/-- A run keeps two lists related if each of its steps does. -/
theorem forall₂_foldl {γ : Type*} {f : List α → γ → List α} {g : List β → γ → List β}
    (keeps : ∀ as bs c, List.Forall₂ R as bs → List.Forall₂ R (f as c) (g bs c)) (related : List.Forall₂ R as bs)
    (cs : List γ) : List.Forall₂ R (cs.foldl f as) (cs.foldl g bs) := by
  induction cs generalizing as bs with
  | nil => exact related
  | cons c cs ih => exact ih (keeps as bs c related)

end Related

end TextTemplate
