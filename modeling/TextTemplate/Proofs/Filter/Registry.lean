import TextTemplate.Environment
import TextTemplate.Proofs.Declarations

/-!
Filters that are registered and removed in environments of which copies are taken. What an environment
holds under a name is told by its own history, which a copy shares up to the moment it is taken.
-/
namespace TextTemplate

/-- A function that is a filter, with the types that it declares for its value, its argument and its
result. -/
inductive FilterFunction : Type 1
  | unary {α ρ : Type} [FilterInput α] [FilterResult ρ] (f : α → ρ)
  | binary {α β ρ : Type} [FilterInput α] [FilterArgument β] [FilterResult ρ] (f : α → β → ρ)

namespace FilterFunction

def filter : FilterFunction → Filter
  | @unary _ _ _ _ f => .ofFunction f
  | @binary _ _ _ _ _ _ f => .ofFunction₂ f

/-- The result of a function, if the value and the argument convert to the types it declares. -/
def applied? : FilterFunction → Value → Option String → Option Value
  | @unary _ _ _ _ f, v, _ => (FilterInput.ofValue? v).map fun a => FilterResult.toValue (f a)
  | @binary _ _ _ _ _ _ f, v, argument =>
    (FilterInput.ofValue? v).bind fun a =>
      (FilterArgument.ofText? argument).map fun b => FilterResult.toValue (f a b)

/-- What does not convert passes a filter unchanged. -/
theorem run_filter (function : FilterFunction) (v : Value) (argument : Option String) :
    function.filter.run v argument = (function.applied? v argument).getD v := by
  cases function with
  | @unary α _ _ _ f =>
    simp only [filter, Filter.ofFunction, applied?]
    cases (FilterInput.ofValue? v : Option α) <;> rfl
  | @binary α β _ _ _ _ f =>
    simp only [filter, Filter.ofFunction₂, applied?]
    cases (FilterInput.ofValue? v : Option α) with
    | none => rfl
    | some a => cases (FilterArgument.ofText? argument : Option β) <;> rfl

end FilterFunction

section Builtin

variable {α β ρ : Type} [FilterInput α] [FilterArgument β] [FilterResult ρ]

end Builtin

/-- What is done to the filters of an environment. -/
inductive FilterChange : Type 1
  | add (name : String) (function : FilterFunction)
  | register (name : String) (function : FilterFunction)
  | remove (name : String)

namespace FilterChange

def apply (env : Environment) : FilterChange → Environment
  | .add name function => env.addFilter name function.filter
  | .register name function => env.register name function.filter
  | .remove name => env.removeFilter name

/-- The function that was registered last under a name and not removed since, the latest change first. -/
def standing? : List FilterChange → String → Option FilterFunction
  | [], _ => none
  | .add name function :: earlier, asked | .register name function :: earlier, asked =>
    if asked = name then some function else standing? earlier asked
  | .remove name :: earlier, asked => if asked = name then none else standing? earlier asked

end FilterChange

/-- An operation on a growing list of environments: a change of one of them, or a copy of one at the end. -/
inductive RegistryOperation : Type 1
  | change (i : Nat) (change : FilterChange)
  | clone (i : Nat)

namespace RegistryOperation

universe u v

/-- Carries out an operation on things that changes are done to. -/
def apply {α : Type u} (change : α → FilterChange → α) (all : List α) : RegistryOperation → List α
  | .change i one => all.modify i (change · one)
  | .clone i => all ++ all[i]?.toList

/-- What stands somewhere in the list is touched only by a change of it. -/
theorem apply_getElem? {α : Type u} (change : α → FilterChange → α) {all : List α} {operation : RegistryOperation}
    {i : Nat} {a : α} (found : all[i]? = some a) (other : ∀ one, operation ≠ .change i one) :
    (operation.apply change all)[i]? = some a := by
  cases operation with
  | change j one =>
    have distinct : j ≠ i := by
      rintro rfl
      exact other one rfl
    rw [apply, List.getElem?_modify_ne _ _ distinct, found]
  | clone j =>
    obtain ⟨inside, -⟩ := List.getElem?_eq_some_iff.mp found
    rw [apply, List.getElem?_append_left inside, found]

section Lockstep

variable {α : Type u} {β : Type v} {R : α → β → Prop} {f : α → FilterChange → α} {g : β → FilterChange → β}
  {as : List α} {bs : List β}

/-- An operation keeps two lists related whose changes keep their parts related. -/
theorem apply_forall₂ (keeps : ∀ a b change, R a b → R (f a change) (g b change)) (related : List.Forall₂ R as bs)
    (operation : RegistryOperation) : List.Forall₂ R (operation.apply f as) (operation.apply g bs) := by
  cases operation with
  | change i change => exact forall₂_modify (fun a b => keeps a b change) related i
  | clone i => exact List.rel_append related (forall₂_getElem? related i)

theorem run_forall₂ (keeps : ∀ a b change, R a b → R (f a change) (g b change)) (related : List.Forall₂ R as bs)
    (operations : List RegistryOperation) :
    List.Forall₂ R (operations.foldl (apply f) as) (operations.foldl (apply g) bs) :=
  forall₂_foldl (fun _ _ operation related => apply_forall₂ keeps related operation) related operations

end Lockstep

end RegistryOperation

namespace Environment

/-- An environment that no filter was registered in. -/
def withoutFilters (env : Environment) : Environment :=
  { env with filters := {} }

/-- Under every name that can be registered an environment holds what a history says. -/
def Stands (env : Environment) (history : List FilterChange) : Prop :=
  ∀ name, isReservedFilter name = false →
    env.filters.get? name = (FilterChange.standing? history name).map FilterFunction.filter

theorem Stands.add {env : Environment} {history : List FilterChange} (stands : env.Stands history) (name : String)
    (function : FilterFunction) : (env.addFilter name function.filter).Stands (.add name function :: history) := by
  intro asked free
  unfold addFilter
  rw [FilterChange.standing?]
  split
  · rename_i reserved
    have other : asked ≠ name := by
      rintro rfl
      rw [free] at reserved
      cases reserved
    rw [if_neg other, stands asked free]
  · rw [Table.get?_insert, stands asked free]
    split <;> rfl

theorem Stands.change {env : Environment} {history : List FilterChange} (stands : env.Stands history)
    (change : FilterChange) : (change.apply env).Stands (change :: history) := by
  cases change with
  | add name function => exact stands.add name function
  | register name function => exact stands.add name function
  | remove name =>
    intro asked free
    show (env.filters.erase name).get? asked = _
    rw [Table.get?_erase, stands asked free, FilterChange.standing?]
    split <;> rfl

/-- The environments behind some operations, of which those at the start have no filters of their own. -/
def after (bases : List Environment) (operations : List RegistryOperation) : List Environment :=
  operations.foldl (RegistryOperation.apply FilterChange.apply) (bases.map withoutFilters)

/-- What was done to each environment behind some operations and to what it is a copy of, the latest first. -/
def histories (bases : List Environment) (operations : List RegistryOperation) : List (List FilterChange) :=
  operations.foldl (RegistryOperation.apply fun history change => change :: history) (bases.map fun _ => [])

end Environment

end TextTemplate
