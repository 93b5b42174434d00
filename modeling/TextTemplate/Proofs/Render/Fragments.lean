import TextTemplate.Proofs.Render.Failures

/-!
Fragments do not reach the render around them. What a fragment writes is in the sink as a whole or not
at all, and a render ends as it would end if no fragment were run.
-/
namespace TextTemplate

/-- The text that stands for a fragment: what its render wrote, or what the environment makes of its failure. -/
def Environment.fragmentOutput (env : Environment) (tag name : String) (inner : Outcome) : String :=
  match inner.result with
  | .ok () => inner.sink.written
  | .error cause => env.fragmentText ⟨{ problem := .brokenFragment tag name }, .fault cause.fault :: cause.causes⟩

/-- Renders of other templates that end in the same way wherever their output is taken. -/
def Nested.Uniform (nested : Nested) : Prop :=
  ∀ name vars session a b, a.isInfallible = true → b.isInfallible = true →
    (nested name vars session a).result = (nested name vars session b).result

theorem Outcome.andThen_result {x y : Outcome} {next : Sink → Outcome} (same : x.result = y.result)
    (rest : (next x.sink).result = (next y.sink).result) : (x.andThen next).result = (y.andThen next).result := by
  obtain ⟨after, result⟩ := x
  obtain ⟨after', result'⟩ := y
  obtain rfl : result = result' := same
  cases result with
  | ok => exact rest
  | error failure => rfl

namespace Machine

variable {scene : Scene} {nested : Nested} {pc : Nat} {stack : List Value} {sink a b : Sink}
  {instruction : Instruction}

theorem fragment_eq (tag name : String) (vars : Value) (infallible : sink.isInfallible = true) :
    fragment scene nested tag name vars sink =
      ⟨(sink.write (scene.env.fragmentOutput tag name (nested name vars scene.session.fork (.text "")))).sink,
        .ok ()⟩ := by
  have whole (s : String) : sink.write s = ⟨(sink.write s).sink, .ok ()⟩ := by
    rw [← Sink.write_result infallible s]
  unfold fragment Environment.fragmentOutput
  split
  · rename_i discards
    cases sink with
    | discarding => rfl
    | text | writer => cases discards
  · dsimp only
    generalize nested name vars scene.session.fork (.text "") = inner
    obtain ⟨after, result⟩ := inner
    cases result with
    | ok => exact whole _
    | error cause => exact whole _

theorem effectOf_write (after : List Value) (infallible : sink.isInfallible = true) (s : String) :
    effectOf pc after (sink.write s) = .goto (pc + 1) after (sink.write s).sink := by
  rw [effectOf, Sink.write_result infallible]

/-- Effects that lead the same way, into sinks that take everything. -/
inductive Effect.Agree : Effect → Effect → Prop where
  | goto {target : Nat} {stack : List Value} {a b : Sink} : a.isInfallible = true → b.isInfallible = true →
    Agree (.goto target stack a) (.goto target stack b)
  | failed {a b : Sink} {failure : Failure} : Agree (.failed a failure) (.failed b failure)

theorem Effect.Agree.into (effect : Effect) (infallible : a.isInfallible = true) (infallible' : b.isInfallible = true) :
    (effect.into a).Agree (effect.into b) := by
  cases effect with
  | goto => exact .goto infallible infallible'
  | failed => exact .failed

theorem eachItem_uniform (regular : nested.Regular) (uniform : nested.Uniform) (item part : String)
    (items : List Value) (infallible : a.isInfallible = true) (infallible' : b.isInfallible = true) :
    (eachItem scene nested item part a items).result = (eachItem scene nested item part b items).result := by
  induction items generalizing a b with
  | nil => rfl
  | cons v items ih =>
    have same := uniform part (scene.root.withEntry item v) scene.session.fork a b infallible infallible'
    have first := regular part (scene.root.withEntry item v) scene.session.fork a infallible
    have second := regular part (scene.root.withEntry item v) scene.session.fork b infallible'
    rw [eachItem_cons, eachItem_cons]
    exact Outcome.andThen_result same
      (ih (first.written.infallible infallible) (second.written.infallible infallible'))

/-- One instruction leads the same way whatever the sink is. -/
theorem execute_agree (regular : nested.Regular) (uniform : nested.Uniform) (infallible : a.isInfallible = true)
    (infallible' : b.isInfallible = true) :
    (execute scene nested pc stack a instruction).Agree (execute scene nested pc stack b instruction) := by
  have written {sink : Sink} (infallible : sink.isInfallible = true) (s : String) :
      (sink.write s).sink.isInfallible = true :=
    Sink.Extends.infallible ⟨s, rfl⟩ infallible
  by_cases quiet : instruction.isQuiet = true
  · have first : execute scene nested pc stack a instruction = _ := execute_quiet quiet nested
    have second : execute scene nested pc stack b instruction = _ := execute_quiet quiet nested
    rw [first, second]
    exact .into _ infallible infallible'
  cases instruction
  case emitText text =>
    simp only [execute, effectOf_write, infallible, infallible']
    exact .goto (written infallible text) (written infallible' text)
  case emit =>
    cases stack with
    | nil => exact .failed
    | cons v stack =>
      simp only [execute, effectOf_write, infallible, infallible']
      exact .goto (written infallible _) (written infallible' _)
  case includes name =>
    simp only [execute, fragment_eq, effectOf, infallible, infallible']
    exact .goto (written infallible _) (written infallible' _)
  case embeds name =>
    cases stack with
    | nil => exact .failed
    | cons v stack =>
      simp only [execute, fragment_eq, effectOf, infallible, infallible']
      exact .goto (written infallible _) (written infallible' _)
  case each item part =>
    cases stack with
    | nil => exact .failed
    | cons v stack =>
      simp only [execute]
      cases v.items? with
      | none => exact .failed
      | some items =>
        have same : (eachItem scene nested item part a items).result = (eachItem scene nested item part b items).result :=
          eachItem_uniform regular uniform item part items infallible infallible'
        have first : (eachItem scene nested item part a items).Regular a :=
          eachItem_regular regular item part items infallible
        have second : (eachItem scene nested item part b items).Regular b :=
          eachItem_regular regular item part items infallible'
        have infallibleFirst := first.written.infallible infallible
        have infallibleSecond := second.written.infallible infallible'
        dsimp only
        generalize eachItem scene nested item part a items = x at same infallibleFirst ⊢
        generalize eachItem scene nested item part b items = y at same infallibleSecond ⊢
        obtain ⟨after, result⟩ := x
        obtain ⟨after', result'⟩ := y
        obtain rfl : result = result' := same
        cases result with
        | ok => exact .goto infallibleFirst infallibleSecond
        | error failure => exact .failed
  all_goals exact absurd rfl quiet

/-- A run ends the same way into all sinks that take everything. -/
theorem run_uniform (regular : nested.Regular) (uniform : nested.Uniform) (infallible : a.isInfallible = true)
    (infallible' : b.isInfallible = true) :
    (run scene nested pc stack a).result = (run scene nested pc stack b).result := by
  induction left : scene.template.listing.instructions.size - pc using Nat.strongRecOn
    generalizing pc stack a b with
  | ind left ih =>
    by_cases inside : pc < scene.template.listing.instructions.size
    · rw [run, run, dif_pos inside, dif_pos inside]
      have agree : (execute scene nested pc stack a scene.template.listing.instructions[pc]).Agree
          (execute scene nested pc stack b scene.template.listing.instructions[pc]) :=
        execute_agree regular uniform infallible infallible'
      generalize execute scene nested pc stack a scene.template.listing.instructions[pc] = x at agree ⊢
      generalize execute scene nested pc stack b scene.template.listing.instructions[pc] = y at agree ⊢
      cases agree with
      | failed => rfl
      | @goto target after _ _ takes takes' =>
        dsimp only
        by_cases forward : pc < target
        · rw [if_pos forward, if_pos forward]
          exact ih _ (by omega) takes takes' rfl
        · rw [if_neg forward, if_neg forward]
    · rw [run, run, dif_neg inside, dif_neg inside]

theorem Reaches.run_eq {start : Sink} (reached : Reaches scene nested start pc stack sink) :
    run scene nested 0 [] start = run scene nested pc stack sink := by
  induction reached with
  | start => rfl
  | next before found effect forward ih => rw [ih, run_goto found effect forward]

theorem Reaches.infallible {start : Sink} (regular : nested.Regular) (uniform : nested.Uniform)
    (infallible : start.isInfallible = true) (reached : Reaches scene nested start pc stack sink) :
    sink.isInfallible = true := by
  induction reached with
  | start => exact infallible
  | @next pc target stack after sink written instruction before found effect forward ih =>
    have agree : (execute scene nested pc stack sink instruction).Agree
        (execute scene nested pc stack sink instruction) := execute_agree regular uniform ih ih
    rw [effect] at agree
    cases agree with
    | goto takes => exact takes

/-- Compiled code comes to an embedding with the values for it on the stack. -/
theorem Reaches.embeds_stack {name source fragment : String} {session declared : Session} {start : Sink}
    (regular : nested.Regular) (compiles : Compiled.compile name source session = .ok (scene.template, declared))
    (infallible : start.isInfallible = true) (reached : Reaches scene nested start pc stack sink)
    (found : scene.template.listing.get? pc = some (.embeds fragment)) : ∃ bound rest, stack = bound :: rest := by
  cases stack with
  | cons bound rest => exact ⟨bound, rest, rfl⟩
  | nil =>
    -- without them the run would fail in a way in which no run of compiled code fails
    have broken : run scene nested 0 [] start =
        ⟨sink, .error (located scene pc (.ofProblem .emptyStack))⟩ := by
      rw [reached.run_eq]
      exact run_failed found rfl
    have impossible := (run_regular regular compiles infallible).failure
    rw [broken] at impossible
    have irregular := impossible _ rfl
    rw [(located_alike scene pc _).problem] at irregular
    cases irregular

end Machine

theorem Chain.run_uniform {env : Environment} {evaluate : Evaluate} {hops : Nat} {seen : List String} {name : String}
    {source : Option String} {session : Session} {a b : Sink}
    (uniform : ∀ compiled visible, (evaluate compiled visible a).result = (evaluate compiled visible b).result) :
    (run env evaluate hops seen name source session a).result =
      (run env evaluate hops seen name source session b).result := by
  induction hops generalizing seen name source session with
  | zero => rfl
  | succ hops ih =>
    rw [run, run]
    split
    · rfl
    split
    · rfl
    split
    · rfl
    split
    · exact uniform _ _
    · split
      · rfl
      · exact ih

/-- The result of a render does not depend on the sink, as long as that takes everything. -/
theorem Environment.renderAt_uniform (env : Environment) (levels : Nat) (root : Value) (source : Option String)
    (name : String) (vars : Value) (session : Session) {a b : Sink} (infallible : a.isInfallible = true)
    (infallible' : b.isInfallible = true) :
    (env.renderAt levels root source name vars session a).result =
      (env.renderAt levels root source name vars session b).result := by
  induction levels generalizing source name vars session a b with
  | zero =>
    rw [renderAt_eq_run, renderAt_eq_run]
    exact Chain.run_uniform fun _ _ => rfl
  | succ levels ih =>
    rw [renderAt_eq_run, renderAt_eq_run]
    apply Chain.run_uniform
    intro compiled visible
    exact Machine.run_uniform
      (fun name vars session sink infallible => env.renderAt_regular levels root none name vars session infallible)
      (fun name vars session a b infallible infallible' => ih none name vars session infallible infallible')
      infallible infallible'

theorem Environment.textOf_error {outcome : Outcome} {sink : Sink} {failure : Failure} (regular : outcome.Regular sink)
    (fails : textOf outcome = .error failure) : failure.kind ≠ .fragmentRender ∧ failure.kind ≠ .writeFailure := by
  unfold textOf at fails
  split at fails
  · cases fails
  · rename_i cause failed
    obtain rfl := Except.error.inj fails
    exact Problem.kind_of_isRegular (regular.failure cause failed)

/-- Isolation of fragments. Wherever the code of a template that writes into a sink which takes everything
comes to an include or an embed, it goes on behind it; what was added to the sink is all that the fragment
wrote or, if its render failed, the text for that failure. No render fails for a fragment: it ends as it
does where its output is discarded, and there fragments are not even run. -/
theorem Environment.renderAt_fragments (env : Environment) :
    (∀ levels root vars name source session compiled declared visible start,
      Compiled.compile name source session = .ok (compiled, declared) → start.isInfallible = true →
      let scene : Scene := ⟨env, compiled, visible, root, vars⟩
      let nested := env.renderAt levels root none
      ∀ pc stack sink, Machine.Reaches scene nested start pc stack sink →
        sink.isInfallible = true ∧
        (∀ fragment, compiled.listing.get? pc = some (.includes fragment) →
          let inner := nested fragment vars visible.fork (.text "")
          (∃ out, inner.sink = .text out) ∧
          Machine.execute scene nested pc stack sink (.includes fragment) =
            .goto (pc + 1) stack (sink.write (env.fragmentOutput "include" fragment inner)).sink) ∧
        (∀ fragment, compiled.listing.get? pc = some (.embeds fragment) →
          ∃ bound rest, stack = bound :: rest ∧
          let inner := nested fragment (.merge [root, bound]) visible.fork (.text "")
          (∃ out, inner.sink = .text out) ∧
          Machine.execute scene nested pc stack sink (.embeds fragment) =
            .goto (pc + 1) rest (sink.write (env.fragmentOutput "embed" fragment inner)).sink)) ∧
    (∀ levels root source name vars session sink, sink.isInfallible = true →
      (env.renderAt levels root source name vars session sink).result =
        (env.renderAt levels root source name vars session .discarding).result) ∧
    (∀ scene nested tag name vars,
      Machine.fragment scene nested tag name vars .discarding = ⟨.discarding, .ok ()⟩) ∧
    (∀ name context failure, env.render name context = .error failure →
      failure.kind ≠ .fragmentRender ∧ failure.kind ≠ .writeFailure) ∧
    (∀ source context failure, env.renderSource source context = .error failure →
      failure.kind ≠ .fragmentRender ∧ failure.kind ≠ .writeFailure) := by
  refine ⟨?_, ?_, ?_, ?_, ?_⟩
  · intro levels root vars name source session compiled declared visible start compiles infallible scene nested
      pc stack sink reached
    have regular : Nested.Regular nested := fun name vars session sink infallible =>
      env.renderAt_regular levels root none name vars session infallible
    have uniform : Nested.Uniform nested := fun name vars session a b infallible infallible' =>
      env.renderAt_uniform levels root none name vars session infallible infallible'
    have takes := reached.infallible regular uniform infallible
    have whole (name : String) (vars : Value) : ∃ out, (nested name vars visible.fork (.text "")).sink = .text out := by
      obtain ⟨out, same⟩ := (regular name vars visible.fork (.text "") rfl).written.of_text
      exact ⟨_, same⟩
    refine ⟨takes, ?_, ?_⟩
    · intro fragment found
      refine ⟨whole fragment vars, ?_⟩
      rw [Machine.execute, Machine.fragment_eq _ _ _ takes]
      rfl
    · intro fragment found
      obtain ⟨bound, rest, rfl⟩ := reached.embeds_stack regular compiles infallible found
      refine ⟨bound, rest, rfl, whole fragment (.merge [root, bound]), ?_⟩
      rw [Machine.execute, Machine.fragment_eq _ _ _ takes]
      rfl
  · intro levels root source name vars session sink infallible
    exact env.renderAt_uniform levels root source name vars session infallible rfl
  · intro scene nested tag name vars
    rfl
  · intro name context failure fails
    exact textOf_error (env.renderAt_regular _ _ none name _ {} rfl) fails
  · intro source context failure fails
    exact textOf_error (env.renderAt_regular _ _ (some source) sourceName _ {} rfl) fails

/-- The text that an instruction only copies to the output. -/
def Instruction.emitted? : Instruction → Option String
  | .emitText text => some text
  | _ => none

theorem Instruction.emitted?_eq_some {instruction : Instruction} {text : String} :
    instruction.emitted? = some text ↔ instruction = .emitText text := by
  cases instruction <;> simp [emitted?]

/-- The template that an instruction includes. -/
def Instruction.included? : Instruction → Option String
  | .includes name => some name
  | _ => none

theorem Instruction.included?_eq_some {instruction : Instruction} {name : String} :
    instruction.included? = some name ↔ instruction = .includes name := by
  cases instruction <;> simp [included?]

/-- A page that includes a template which writes something and then fails. -/
theorem Environment.renderAt_fragments_page :
    let source := "a" ++ Template.tag "include 'part'" ++ "b"
    let env := ({} : Environment).addTemplate "part" ("x" ++ Template.tag "if 'y' < 1" ++ Template.tag "endif")
    let nested := env.renderAt 1 (.map []) none
    let inner := nested "part" (.map []) {} (.text "")
    ∃ compiled declared, Compiled.compile "page" source {} = .ok (compiled, declared) ∧
      let scene : Scene := ⟨env, compiled, {}, .map [], .map []⟩
      Machine.Reaches scene nested (.text "") 1 [] (.text "a") ∧
      inner.result.isOk = false ∧
      Machine.execute scene nested 1 [] (.text "a") (.includes "part") =
        .goto 2 [] (.text ("a" ++ env.fragmentOutput "include" "part" inner)) := by
  intro source env nested inner
  obtain ⟨⟨⟨compiled, declared⟩, compiles, first, second⟩, fails⟩ :
      (∃ result, Compiled.compile "page" source {} = .ok result ∧
        (result.1.listing.get? 0).bind Instruction.emitted? = some "a" ∧
        (result.1.listing.get? 1).bind Instruction.included? = some "part") ∧ inner.result.isOk = false := by
    decide +kernel
  obtain ⟨_, placed, emits⟩ := Option.bind_eq_some_iff.mp first
  obtain ⟨_, found, includes⟩ := Option.bind_eq_some_iff.mp second
  obtain rfl := Instruction.emitted?_eq_some.mp emits
  obtain rfl := Instruction.included?_eq_some.mp includes
  have reached : Machine.Reaches ⟨env, compiled, {}, .map [], .map []⟩ nested (.text "") 1 [] (.text "a") :=
    .next .start placed rfl Nat.zero_lt_one
  have isolated := (env.renderAt_fragments.1 1 (.map []) (.map []) "page" source {} compiled declared {}
    (.text "") compiles rfl 1 [] (.text "a") reached).2.1 "part" found
  exact ⟨compiled, declared, compiles, reached, fails, isolated.2⟩

end TextTemplate
