import TextTemplate.Proofs.Code.Effects
import TextTemplate.Proofs.Compiled
import TextTemplate.Render.Chain

/-!
Renders by rules. The rules count the depth upwards and have no hops to spend, and a derivation by them
is finite; what they derive is unique. A derivation keeps a record of the templates that were evaluated.
-/
namespace TextTemplate

/-- What is to be done in a render. -/
inductive Task where
  | render (depth : Nat) (seen : List String) (name : String) (source : Option String) (vars : Value)
    (session : Session) (sink : Sink)
  | evaluate (depth : Nat) (compiled : Compiled) (vars : Value) (session : Session) (sink : Sink)
  | run (depth : Nat) (scene : Scene) (pc : Nat) (stack : List Value) (sink : Sink)

/-- The evaluation of a template at a depth. -/
structure Evaluation where
  depth : Nat
  template : String

/-- A render that an instruction of a scene at some depth asks for. -/
def Machine.Call.task (depth : Nat) (scene : Scene) (call : Call) : Task :=
  .render (depth + 1) [] call.name none call.vars scene.session.fork call.sink

/-- What a name that was not seen yet leads to: a compiled template, and what the session holds behind it. -/
def Chain.prepare (env : Environment) (seen : List String) (name : String) (source : Option String)
    (session : Session) : Except Failure (Compiled × Session) :=
  if name ∈ seen then .error (.ofProblem (.layoutCycle name))
  else
    match load env name source with
    | .error failure => .error failure
    | .ok text => (Compiled.compile name text session).mapError fun fault => ⟨fault, []⟩

inductive Derives (env : Environment) (root : Value) : Task → Outcome → List Evaluation → Prop where
  | unprepared {depth : Nat} {seen : List String} {name : String} {source : Option String} {vars : Value}
    {session : Session} {sink : Sink} {failure : Failure} :
    Chain.prepare env seen name source session = .error failure →
    Derives env root (.render depth seen name source vars session sink) ⟨sink, .error failure⟩ []
  | broken {depth : Nat} {seen : List String} {name layout : String} {source : Option String} {vars : Value}
    {session declared : Session} {sink : Sink} {compiled : Compiled} {content : Outcome} {failure : Failure}
    {record : List Evaluation} :
    Chain.prepare env seen name source session = .ok (compiled, declared) → declared.layout = some layout →
    Derives env root (.evaluate depth compiled vars declared.fork .discarding) content record →
    content.result = .error failure →
    Derives env root (.render depth seen name source vars session sink) ⟨sink, .error failure⟩ record
  | content {depth : Nat} {seen : List String} {name layout : String} {source : Option String} {vars : Value}
    {session declared : Session} {sink : Sink} {compiled : Compiled} {content outcome : Outcome}
    {record later : List Evaluation} :
    Chain.prepare env seen name source session = .ok (compiled, declared) → declared.layout = some layout →
    Derives env root (.evaluate depth compiled vars declared.fork .discarding) content record →
    content.result = .ok () →
    Derives env root (.render depth (name :: seen) layout none vars declared.fork sink) outcome later →
    Derives env root (.render depth seen name source vars session sink) outcome (record ++ later)
  | final {depth : Nat} {seen : List String} {name : String} {source : Option String} {vars : Value}
    {session declared : Session} {sink : Sink} {compiled : Compiled} {outcome : Outcome}
    {record : List Evaluation} :
    Chain.prepare env seen name source session = .ok (compiled, declared) → declared.layout = none →
    Derives env root (.evaluate depth compiled vars declared.fork sink) outcome record →
    Derives env root (.render depth seen name source vars session sink) outcome record
  | tooDeep {depth : Nat} {compiled : Compiled} {vars : Value} {session : Session} {sink : Sink} :
    maxRenderDepth < depth →
    Derives env root (.evaluate depth compiled vars session sink) ⟨sink, .error (.ofProblem .tooDeep)⟩ []
  | starts {depth : Nat} {compiled : Compiled} {vars : Value} {session : Session} {sink : Sink}
    {outcome : Outcome} {record : List Evaluation} :
    depth ≤ maxRenderDepth →
    Derives env root (.run depth ⟨env, compiled, session, root, vars⟩ 0 [] sink) outcome record →
    Derives env root (.evaluate depth compiled vars session sink) outcome (⟨depth, compiled.name⟩ :: record)
  | halts {depth pc : Nat} {scene : Scene} {stack : List Value} {sink : Sink} :
    scene.template.listing.get? pc = none →
    Derives env root (.run depth scene pc stack sink) ⟨sink, .ok ()⟩ []
  | fails {depth pc : Nat} {scene : Scene} {nested : Nested} {stack : List Value} {sink written : Sink}
    {instruction : Instruction} {failure : Failure} {records : Machine.Call → List Evaluation} :
    scene.template.listing.get? pc = some instruction →
    (∀ call ∈ Machine.calls scene nested stack sink instruction,
      Derives env root (call.task depth scene) (call.answer scene nested) (records call)) →
    Machine.execute scene nested pc stack sink instruction = .failed written failure →
    Derives env root (.run depth scene pc stack sink) ⟨written, .error failure⟩
      ((Machine.calls scene nested stack sink instruction).flatMap records)
  | goes {depth pc target : Nat} {scene : Scene} {nested : Nested} {stack after : List Value} {sink written : Sink}
    {instruction : Instruction} {outcome : Outcome} {records : Machine.Call → List Evaluation}
    {later : List Evaluation} :
    scene.template.listing.get? pc = some instruction →
    (∀ call ∈ Machine.calls scene nested stack sink instruction,
      Derives env root (call.task depth scene) (call.answer scene nested) (records call)) →
    Machine.execute scene nested pc stack sink instruction = .goto target after written →
    Derives env root (.run depth scene target after written) outcome later →
    Derives env root (.run depth scene pc stack sink) outcome
      ((Machine.calls scene nested stack sink instruction).flatMap records ++ later)

namespace Derives

variable {env : Environment} {root : Value} {task : Task} {outcome other : Outcome} {record record' : List Evaluation}

/-- No template is evaluated more deeply than the limit. -/
theorem depth_le (derived : Derives env root task outcome record) :
    ∀ evaluation ∈ record, evaluation.depth ≤ maxRenderDepth := by
  have several {calls : List Machine.Call} {records : Machine.Call → List Evaluation}
      (each : ∀ call ∈ calls, ∀ evaluation ∈ records call, evaluation.depth ≤ maxRenderDepth) :
      ∀ evaluation ∈ calls.flatMap records, evaluation.depth ≤ maxRenderDepth := by
    intro evaluation found
    obtain ⟨call, asked, inside⟩ := List.mem_flatMap.mp found
    exact each call asked evaluation inside
  induction derived with
  | unprepared | tooDeep | halts => exact fun _ found => absurd found List.not_mem_nil
  | broken _ _ _ _ ih => exact ih
  | final _ _ _ ih => exact ih
  | content _ _ _ _ _ ih ih' =>
    intro evaluation found
    rcases List.mem_append.mp found with first | later
    · exact ih evaluation first
    · exact ih' evaluation later
  | starts within _ ih =>
    intro evaluation found
    rcases List.mem_cons.mp found with rfl | inside
    · exact within
    · exact ih evaluation inside
  | fails _ _ _ ih => exact several ih
  | goes _ _ _ _ ih ih' =>
    intro evaluation found
    rcases List.mem_append.mp found with first | later
    · exact several ih evaluation first
    · exact ih' evaluation later

/-- If the answers to all that is asked are known, an instruction has one effect. -/
theorem same_effect {depth pc : Nat} {scene : Scene} {nested nested' : Nested} {stack : List Value} {sink : Sink}
    {instruction : Instruction} {records : Machine.Call → List Evaluation}
    (known : ∀ call ∈ Machine.calls scene nested stack sink instruction, ∀ {outcome : Outcome}
      {record : List Evaluation}, Derives env root (call.task depth scene) outcome record →
        call.answer scene nested = outcome)
    (answered : ∀ call ∈ Machine.calls scene nested' stack sink instruction,
      Derives env root (call.task depth scene) (call.answer scene nested') (records call)) :
    Machine.execute scene nested' pc stack sink instruction = Machine.execute scene nested pc stack sink instruction :=
  (Machine.execute_congr fun call asked asked' => (known call asked (answered call asked')).symm).1

/-- The rules leave no choice. -/
theorem unique (derived : Derives env root task outcome record) (derived' : Derives env root task other record') :
    outcome = other := by
  induction derived generalizing other record' with
  | unprepared fails =>
    cases derived' with
    | unprepared fails' => rw [Except.error.inj (fails.symm.trans fails')]
    | broken prepared | content prepared | final prepared => cases fails.symm.trans prepared
  | broken prepared extended evaluated failed ih =>
    cases derived' with
    | unprepared fails => cases prepared.symm.trans fails
    | broken prepared' extended' evaluated' failed' =>
      cases prepared.symm.trans prepared'
      rw [ih evaluated'] at failed
      rw [Except.error.inj (failed.symm.trans failed')]
    | content prepared' extended' evaluated' succeeded =>
      cases prepared.symm.trans prepared'
      rw [ih evaluated', succeeded] at failed
      cases failed
    | final prepared' last =>
      cases prepared.symm.trans prepared'
      cases extended.symm.trans last
  | content prepared extended evaluated succeeded rest ih ih' =>
    cases derived' with
    | unprepared fails => cases prepared.symm.trans fails
    | broken prepared' extended' evaluated' failed =>
      cases prepared.symm.trans prepared'
      rw [ih evaluated', failed] at succeeded
      cases succeeded
    | content prepared' extended' evaluated' succeeded' rest' =>
      cases prepared.symm.trans prepared'
      cases extended.symm.trans extended'
      exact ih' rest'
    | final prepared' last =>
      cases prepared.symm.trans prepared'
      cases extended.symm.trans last
  | final prepared last evaluated ih =>
    cases derived' with
    | unprepared fails => cases prepared.symm.trans fails
    | broken prepared' extended | content prepared' extended =>
      cases prepared.symm.trans prepared'
      cases extended.symm.trans last
    | final prepared' last' evaluated' =>
      cases prepared.symm.trans prepared'
      exact ih evaluated'
  | tooDeep deep =>
    cases derived' with
    | tooDeep => rfl
    | starts within => omega
  | starts within ran ih =>
    cases derived' with
    | tooDeep deep => omega
    | starts _ ran' => exact ih ran'
  | halts behind =>
    cases derived' with
    | halts => rfl
    | fails found | goes found => cases behind.symm.trans found
  | fails found answered effect ih =>
    cases derived' with
    | halts behind => cases found.symm.trans behind
    | fails found' answered' effect' =>
      cases found.symm.trans found'
      cases effect'.symm.trans ((same_effect ih answered').trans effect)
      rfl
    | goes found' answered' effect' =>
      cases found.symm.trans found'
      cases effect'.symm.trans ((same_effect ih answered').trans effect)
  | goes found answered effect rest ih ih' =>
    cases derived' with
    | halts behind => cases found.symm.trans behind
    | fails found' answered' effect' =>
      cases found.symm.trans found'
      cases effect'.symm.trans ((same_effect ih answered').trans effect)
    | goes found' answered' effect' rest' =>
      cases found.symm.trans found'
      cases effect'.symm.trans ((same_effect ih answered').trans effect)
      exact ih' rest'

end Derives

end TextTemplate
