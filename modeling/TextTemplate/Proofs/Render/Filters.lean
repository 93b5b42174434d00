import TextTemplate.Proofs.Filter.Registry
import TextTemplate.Proofs.Render.Plain
import TextTemplate.Proofs.Syntax.Filters

/-!
Rendering a variable with filters behind it. Its value goes through the filters from left to right, each
of them the one that the environment's own history left under its name.
-/
namespace TextTemplate

/-- What a step makes of a value where functions stand under names. The fallback replaces an absent value
whatever stands under its name; any other filter is the function that stands under its name, else the one
built in, and what neither knows or takes passes unchanged. -/
def FilterStep.apply (standing : String → Option FilterFunction) (step : FilterStep) (v : Value) : Value :=
  if step.name = "default" then
    match step.argument, v with
    | some text, .undefined | some text, .none => .str text
    | _, v => v
  else
    match standing step.name with
    | some function => (function.applied? v step.argument).getD v
    | none =>
      match Filter.builtin? step.name with
      | some filter => filter.run v step.argument
      | none => v

namespace Environment

variable {env : Environment} {history : List FilterChange}

/-- A filter of an environment is the step that its history says. -/
theorem Stands.apply (stands : env.Stands history) (step : FilterStep) (v : Value) :
    (if step.name = defaultFilter then Filter.fallback v (step.argument.map .str)
      else env.applyFilter step.name v step.argument) = step.apply (FilterChange.standing? history) v := by
  obtain ⟨name, argument⟩ := step
  unfold FilterStep.apply
  by_cases reserved : name = "default"
  · refine (if_pos reserved).trans (Eq.trans ?_ (if_pos reserved).symm)
    cases argument <;> cases v <;> rfl
  · refine (if_neg reserved).trans (Eq.trans ?_ (if_neg reserved).symm)
    have free : isReservedFilter name = false := by simpa [isReservedFilter] using reserved
    rw [applyFilter, filter?, stands name free]
    cases FilterChange.standing? history name with
    | none => rfl
    | some function => exact function.run_filter v argument

/-- The filters behind an expression take its value one after the other. -/
theorem Stands.evaluate_piped (stands : env.Stands history) (vars : Value) (steps : List FilterStep) {e : Expr}
    {v : Value} (here : e.evaluate env vars = .ok v) :
    (e.piped steps).evaluate env vars =
      .ok (steps.foldl (fun v step => step.apply (FilterChange.standing? history) v) v) := by
  induction steps generalizing e v with
  | nil => exact here
  | cons step steps ih =>
    refine ih ?_
    rw [Expr.evaluate, here]
    exact congrArg Except.ok (stands.apply step v)

theorem Stands.renderSource (stands : env.Stands history) {source name : String} {steps : List FilterStep}
    (tag : IsFilterTag source name steps) (context : Value) :
    env.renderSource source context =
      .ok (steps.foldl (fun v step => step.apply (FilterChange.standing? history) v)
        ((env.rootOf context).member name)).display := by
  obtain ⟨template, value, span, parses, children, bare⟩ := tag.parse sourceName
  exact renderSource_output parses children bare (stands.evaluate_piped (env.rootOf context) steps rfl)

end Environment

end TextTemplate
