import TextTemplate.Proofs.Render.Streaming

/-!
Runs whose output is thrown away. They render no fragment, and runs into a text render all of them.
Still both take the same way through the code, with the same values on the stack, and end in the same
way, so that the content of a template with a layout may be evaluated without its fragments.
-/
namespace TextTemplate

theorem Sink.Extends.of_discarding {after : Sink} (extended : Sink.discarding.Extends after) : after = .discarding := by
  obtain ⟨s, rfl⟩ := extended
  rfl

theorem Outcome.eq_discarding {x y : Outcome} (same : x.result = y.result) (extended : Sink.discarding.Extends x.sink) :
    x = ⟨.discarding, y.result⟩ := by
  obtain ⟨after, result⟩ := x
  obtain rfl := extended.of_discarding
  exact congrArg _ same

namespace Machine

variable {scene : Scene} {nested : Nested} {pc : Nat} {stack : List Value} {sink : Sink} {instruction : Instruction}

theorem Effect.Agree.eq_into {x y : Effect} (agree : x.Agree y) : x = y.into x.sink := by
  cases agree with
  | goto => rfl
  | failed => rfl

/-- An instruction does the same where output is discarded as where it is kept, apart from the output. -/
theorem execute_discarding (regular : nested.Regular) (uniform : nested.Uniform) (s : String) :
    execute scene nested pc stack .discarding instruction =
      (execute scene nested pc stack (.text s) instruction).into .discarding := by
  have agree : (execute scene nested pc stack .discarding instruction).Agree
      (execute scene nested pc stack (.text s) instruction) := execute_agree regular uniform rfl rfl
  have discarded : (execute scene nested pc stack .discarding instruction).sink = .discarding :=
    (execute_extends regular rfl).of_discarding
  have same := agree.eq_into
  rwa [discarded] at same

theorem execute_text {target : Nat} {after : List Value} {s : String} (regular : nested.Regular)
    (uniform : nested.Uniform)
    (effect : execute scene nested pc stack .discarding instruction = .goto target after sink) :
    ∃ t, execute scene nested pc stack (.text s) instruction = .goto target after (.text t) := by
  have extended : (Sink.text s).Extends (execute scene nested pc stack (.text s) instruction).sink :=
    execute_extends regular rfl
  rw [execute_discarding regular uniform s] at effect
  generalize execute scene nested pc stack (.text s) instruction = kept at effect extended ⊢
  cases kept with
  | failed => cases effect
  | goto target' after' written =>
    cases effect
    obtain ⟨t, rfl⟩ := extended.of_text
    exact ⟨s ++ t, rfl⟩

theorem Reaches.discarding {s : String} (regular : nested.Regular) (uniform : nested.Uniform)
    (reached : Reaches scene nested (.text s) pc stack sink) :
    (∃ t, sink = .text t) ∧ Reaches scene nested .discarding pc stack .discarding := by
  induction reached with
  | start => exact ⟨⟨s, rfl⟩, .start⟩
  | @next pc target stack after sink written instruction before found effect forward ih =>
    obtain ⟨⟨t, rfl⟩, discarded⟩ := ih
    have extended : (Sink.text t).Extends (execute scene nested pc stack (.text t) instruction).sink :=
      execute_extends regular rfl
    have step : execute scene nested pc stack .discarding instruction = .goto target after .discarding := by
      rw [execute_discarding regular uniform t, effect]
      rfl
    rw [effect] at extended
    obtain ⟨u, same⟩ := extended.of_text
    exact ⟨⟨t ++ u, same⟩, discarded.next found step forward⟩

theorem Reaches.text (s : String) (regular : nested.Regular) (uniform : nested.Uniform)
    (reached : Reaches scene nested .discarding pc stack sink) :
    sink = .discarding ∧ ∃ t, Reaches scene nested (.text s) pc stack (.text t) := by
  induction reached with
  | start => exact ⟨rfl, s, .start⟩
  | @next pc target stack after sink written instruction before found effect forward ih =>
    obtain ⟨rfl, t, kept⟩ := ih
    have extended : Sink.discarding.Extends (execute scene nested pc stack .discarding instruction).sink :=
      execute_extends regular rfl
    rw [effect] at extended
    obtain ⟨u, step⟩ := execute_text (s := t) regular uniform effect
    exact ⟨extended.of_discarding, u, kept.next found step forward⟩

/-- A run that discards its output comes through the states of a run into a text. -/
theorem reaches_discarding_iff (s : String) (regular : nested.Regular) (uniform : nested.Uniform) :
    Reaches scene nested .discarding pc stack .discarding ↔ ∃ t, Reaches scene nested (.text s) pc stack (.text t) := by
  constructor
  · intro reached
    exact (reached.text s regular uniform).2
  · rintro ⟨t, reached⟩
    exact (reached.discarding regular uniform).2

theorem run_discarding (s : String) (regular : nested.Regular) (uniform : nested.Uniform) :
    run scene nested pc stack .discarding = ⟨.discarding, (run scene nested pc stack (.text s)).result⟩ := by
  apply Outcome.eq_discarding
  · exact run_uniform regular uniform rfl rfl
  · exact run_extends regular rfl

end Machine

namespace Environment

theorem nested_regular (env : Environment) (levels : Nat) (root : Value) :
    Nested.Regular (env.renderAt levels root none) := fun name vars session _ infallible =>
  env.renderAt_regular levels root none name vars session infallible

theorem nested_uniform (env : Environment) (levels : Nat) (root : Value) :
    Nested.Uniform (env.renderAt levels root none) := fun name vars session _ _ infallible infallible' =>
  env.renderAt_uniform levels root none name vars session infallible infallible'

/-- Discarding the output cannot be observed. A template ends with the same result, failures and what they
show included, whether its output is discarded or written to a text that nobody reads, although the
run that discards it renders no fragment. It does so with partials and layouts at any depth, and on the
same way through its code. -/
theorem evaluateAt_discarding (env : Environment) (levels : Nat) (root vars : Value) (s : String) :
    (∀ compiled session, env.evaluateAt levels root vars compiled session .discarding =
      ⟨.discarding, (env.evaluateAt levels root vars compiled session (.text s)).result⟩) ∧
    (∀ source name session, env.renderAt levels root source name vars session .discarding =
      ⟨.discarding, (env.renderAt levels root source name vars session (.text s)).result⟩) ∧
    ∀ compiled session,
      let scene : Scene := ⟨env, compiled, session, root, vars⟩
      let nested := env.renderAt levels root none
      ∀ pc stack,
        (Machine.Reaches scene nested .discarding pc stack .discarding ↔
          ∃ t, Machine.Reaches scene nested (.text s) pc stack (.text t)) ∧
        ∀ name, Machine.calls scene nested stack .discarding (.includes name) = [] ∧
          Machine.calls scene nested stack .discarding (.embeds name) = [] := by
  refine ⟨?_, ?_, ?_⟩
  · intro compiled session
    cases levels with
    | zero => rfl
    | succ levels => exact Machine.run_discarding s (env.nested_regular levels root) (env.nested_uniform levels root)
  · intro source name session
    apply Outcome.eq_discarding
    · exact env.renderAt_uniform levels root source name vars session rfl rfl
    · exact (env.renderAt_regular levels root source name vars session rfl).written
  · intro compiled session scene nested pc stack
    constructor
    · exact Machine.reaches_discarding_iff s (env.nested_regular levels root) (env.nested_uniform levels root)
    · intro name
      cases stack with
      | nil => exact ⟨rfl, rfl⟩
      | cons bound rest => exact ⟨rfl, rfl⟩

end Environment

end TextTemplate
