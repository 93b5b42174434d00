import TextTemplate.Proofs.Code.Correctness
import TextTemplate.Proofs.Code.Effects
import TextTemplate.Proofs.Render.Chain

/-!
What a render into a sink that takes everything does to the sink, and how it can fail. It only writes
behind what is there, and it fails neither for a fragment nor for its output.
-/
namespace TextTemplate

theorem Text.bytes_append (s t : String) : bytes (s ++ t) = bytes s ++ bytes t := by
  simp [bytes]

namespace Sink

/-- Whether a sink takes everything that is written to it. -/
def isInfallible : Sink → Bool
  | .writer (some _) .. => false
  | .discarding | .text _ | .writer none .. => true

/-- A sink behind another one to which more was written. -/
def Extends (before after : Sink) : Prop :=
  ∃ s, after = (before.write s).sink

variable {sink before middle after : Sink}

theorem write_result (infallible : sink.isInfallible = true) (s : String) : (sink.write s).result = .ok () := by
  cases sink with
  | discarding => rfl
  | text written => rfl
  | writer room accepted failed =>
    cases room with
    | none => rfl
    | some room => cases infallible

theorem Extends.infallible (extended : before.Extends after) (infallible : before.isInfallible = true) :
    after.isInfallible = true := by
  obtain ⟨s, rfl⟩ := extended
  cases before with
  | discarding => rfl
  | text written => rfl
  | writer room accepted failed =>
    cases room with
    | none => rfl
    | some room => cases infallible

theorem Extends.refl (infallible : sink.isInfallible = true) : sink.Extends sink := by
  refine ⟨"", ?_⟩
  cases sink with
  | discarding => rfl
  | text written => simp [write]
  | writer room accepted failed =>
    cases room with
    | none => simp [write, Text.bytes]
    | some room => cases infallible

theorem Extends.trans (infallible : before.isInfallible = true) (first : before.Extends middle)
    (second : middle.Extends after) : before.Extends after := by
  obtain ⟨s, rfl⟩ := first
  obtain ⟨t, rfl⟩ := second
  refine ⟨s ++ t, ?_⟩
  cases before with
  | discarding => rfl
  | text written => simp [write, String.append_assoc]
  | writer room accepted failed =>
    cases room with
    | none => simp [write, Text.bytes_append]
    | some room => cases infallible

theorem Extends.of_text {s : String} (extended : (Sink.text s).Extends after) : ∃ t, after = .text (s ++ t) := by
  obtain ⟨t, rfl⟩ := extended
  exact ⟨t, rfl⟩

end Sink

namespace Problem

/-- The problems of a render: a fragment that failed, output that cannot be written and code without
operands are none of them. -/
def isRegular : Problem → Bool
  | .brokenFragment .. | .writerFailed | .formattingFailed | .emptyStack | .keyNoText _ | .keyNoScalar _
  | .unconvertible _ | .reported .. => false
  | .ofSyntax _ | .endlessFill _ | .layoutCycle _ | .tooDeep | .incomparable .. | .notIterable _
  | .noTemplate .. | .unreadable _ => true

theorem kind_of_isRegular {problem : Problem} (regular : problem.isRegular = true) :
    problem.kind ≠ .fragmentRender ∧ problem.kind ≠ .writeFailure := by
  cases problem <;> simp_all [isRegular, kind]

theorem isRegular_of_isSyntactic {problem : Problem} (syntactic : problem.isSyntactic = true) :
    problem.isRegular = true := by
  cases problem <;> simp_all [isSyntactic, isRegular]

end Problem

namespace Outcome

/-- An outcome that wrote behind what was in the sink, and that failed, if it did, with a problem of a render. -/
structure Regular (sink : Sink) (outcome : Outcome) : Prop where
  written : sink.Extends outcome.sink
  failure : ∀ failure, outcome.result = .error failure → failure.fault.problem.isRegular = true

variable {sink : Sink} {outcome other : Outcome} {α : Type}

theorem Regular.done (infallible : sink.isInfallible = true) : Regular sink ⟨sink, .ok ()⟩ :=
  ⟨.refl infallible, fun _ fails => by cases fails⟩

theorem Regular.failed (infallible : sink.isInfallible = true) {failure : Failure}
    (regular : failure.fault.problem.isRegular = true) : Regular sink ⟨sink, .error failure⟩ := by
  refine ⟨.refl infallible, fun other fails => ?_⟩
  obtain rfl : failure = other := Except.error.inj fails
  exact regular

theorem Regular.write (infallible : sink.isInfallible = true) (s : String) : Regular sink (sink.write s) := by
  refine ⟨⟨s, rfl⟩, fun failure fails => ?_⟩
  rw [Sink.write_result infallible] at fails
  cases fails

theorem Regular.andThen {next : Sink → Outcome} (infallible : sink.isInfallible = true)
    (first : Regular sink outcome) (rest : ∀ after, after.isInfallible = true → Regular after (next after)) :
    Regular sink (outcome.andThen next) := by
  obtain ⟨after, result⟩ := outcome
  cases result with
  | error failure => exact first
  | ok =>
    have behind := rest after (first.written.infallible infallible)
    exact ⟨first.written.trans infallible behind.written, behind.failure⟩

theorem Regular.withValue {value : Except Problem α} {next : α → Outcome} (infallible : sink.isInfallible = true)
    (fails : ∀ problem, value = .error problem → problem.isRegular = true) (rest : ∀ a, Regular sink (next a)) :
    Regular sink (.withValue sink value next) := by
  cases value with
  | error problem => exact .failed infallible (fails problem rfl)
  | ok a => exact rest a

theorem Alike.regular (alike : outcome.Alike other) (regular : Regular sink other) : Regular sink outcome := by
  refine ⟨alike.sink ▸ regular.written, fun failure fails => ?_⟩
  have same := alike.result
  rw [fails] at same
  cases fails' : other.result with
  | ok =>
    rw [fails'] at same
    exact same.elim
  | error cause =>
    rw [fails'] at same
    rw [same.problem]
    exact regular.failure cause fails'

end Outcome

/-- Renders of other templates that are regular wherever their output is taken. -/
def Nested.Regular (nested : Nested) : Prop :=
  ∀ name vars session sink, sink.isInfallible = true → (nested name vars session sink).Regular sink

namespace Expr

theorem ordering_error {a b : Value} {problem : Problem} (fails : Machine.ordering a b = .error problem) :
    problem.isRegular = true := by
  unfold Machine.ordering at fails
  split at fails
  · cases fails
  · split at fails
    · cases fails
    · split at fails
      · cases fails
      · obtain rfl := Except.error.inj fails
        rfl

theorem tested_error {test : Ordering → Bool} {a b : Value} {problem : Problem}
    (fails : Value.tested test a b = .error problem) : problem.isRegular = true := by
  unfold Value.tested at fails
  cases ordered : Machine.ordering a b with
  | ok order =>
    rw [ordered] at fails
    cases fails
  | error other =>
    rw [ordered] at fails
    obtain rfl : other = problem := Except.error.inj fails
    exact ordering_error ordered

/-- Expressions fail for operands without an order only. -/
theorem evaluate_error {env : Environment} {vars : Value} {expr : Expr} {problem : Problem}
    (fails : expr.evaluate env vars = .error problem) : problem.isRegular = true := by
  induction expr generalizing problem with
  | var name span => cases fails
  | const value span => cases fails
  | member of name span ih =>
    rcases bind_eq_error.mp fails with inner | ⟨v, -, last⟩
    · exact ih inner
    · cases last
  | not operand span ih =>
    rcases bind_eq_error.mp fails with inner | ⟨v, -, last⟩
    · exact ih inner
    · cases last
  | filter name operand argument span ih =>
    rcases bind_eq_error.mp fails with inner | ⟨v, -, last⟩
    · exact ih inner
    · cases last
  | binary op left right span ihl ihr =>
    have operands : ∀ {f : Value → Value → Except Problem Value},
        (∀ a b, f a b = .error problem → problem.isRegular = true) →
        (do
          let a ← left.evaluate env vars
          let b ← right.evaluate env vars
          f a b) = .error problem → problem.isRegular = true := by
      intro f applied fails
      rcases bind_eq_error.mp fails with first | ⟨a, -, rest⟩
      · exact ihl first
      rcases bind_eq_error.mp rest with second | ⟨b, -, last⟩
      · exact ihr second
      · exact applied a b last
    cases op with
    | eq => exact operands (fun _ _ impossible => by cases impossible) fails
    | ne => exact operands (fun _ _ impossible => by cases impossible) fails
    | lt => exact operands (fun _ _ => tested_error) fails
    | lte => exact operands (fun _ _ => tested_error) fails
    | gt => exact operands (fun _ _ => tested_error) fails
    | gte => exact operands (fun _ _ => tested_error) fails
    | and =>
      rcases bind_eq_error.mp fails with first | ⟨v, -, rest⟩
      · exact ihl first
      · split at rest
        · exact ihr rest
        · cases rest
    | or =>
      rcases bind_eq_error.mp fails with first | ⟨v, -, rest⟩
      · exact ihl first
      · split at rest
        · cases rest
        · exact ihr rest

theorem evaluateBindings_error {env : Environment} {vars : Value} {bindings : List (String × Expr)}
    {problem : Problem} (fails : evaluateBindings env vars bindings = .error problem) : problem.isRegular = true := by
  induction bindings with
  | nil => cases fails
  | cons binding rest ih =>
    rcases bind_eq_error.mp fails with first | ⟨v, -, others⟩
    · exact evaluate_error first
    · rcases bind_eq_error.mp others with later | ⟨bound, -, last⟩
      · exact ih later
      · cases last

end Expr

section
variable {scene : Scene} {nested : Nested} {fill : Stmt.FillWriter} {sink : Sink}

theorem eachItem_regular (regular : nested.Regular) (item part : String) (items : List Value)
    (infallible : sink.isInfallible = true) : (Machine.eachItem scene nested item part sink items).Regular sink := by
  induction items generalizing sink with
  | nil => exact .done infallible
  | cons v items ih =>
    have first := regular part (scene.root.withEntry item v) scene.session.fork sink infallible
    exact first.andThen infallible fun after infallible => ih infallible

theorem fragment_regular (tag name : String) (vars : Value) (infallible : sink.isInfallible = true) :
    (Machine.fragment scene nested tag name vars sink).Regular sink := by
  unfold Machine.fragment
  split
  · exact .done infallible
  · dsimp only
    split
    · exact .write infallible _
    · exact .write infallible _

namespace Stmt

mutual

theorem evaluate_regular (regular : nested.Regular)
    (fills : ∀ name sink, sink.isInfallible = true → (fill name sink).Regular sink) :
    (stmt : Stmt) → {sink : Sink} → sink.isInfallible = true → (evaluate scene nested fill stmt sink).Regular sink
  | .text raw _, _, infallible => .write infallible raw
  | .output value _, _, infallible =>
    .withValue infallible (fun _ => Expr.evaluate_error) fun v => .write infallible v.display
  | .conditional branches otherwise _, _, infallible =>
    evaluateBranches_regular regular fills branches
      (fun infallible => evaluateOtherwise_regular regular fills otherwise infallible) infallible
  | .each item collection part _, sink, infallible => by
    refine .withValue infallible (fun _ => Expr.evaluate_error) fun v => ?_
    cases v.items? with
    | none => exact .failed infallible rfl
    | some items => exact eachItem_regular regular item part items infallible
  | .inclusion name _, _, infallible => fragment_regular "include" name scene.vars infallible
  | .embedding name bindings _, _, infallible =>
    .withValue infallible (fun _ => Expr.evaluateBindings_error) fun bound =>
      fragment_regular "embed" name _ infallible
  | .fill name _, sink, infallible => fills name sink infallible
  | .layout .., _, infallible => .done infallible
  | .capture .., _, infallible => .done infallible

theorem evaluateAll_regular (regular : nested.Regular)
    (fills : ∀ name sink, sink.isInfallible = true → (fill name sink).Regular sink) :
    (stmts : List Stmt) → {sink : Sink} → sink.isInfallible = true →
      (evaluateAll scene nested fill stmts sink).Regular sink
  | [], _, infallible => .done infallible
  | stmt :: stmts, _, infallible =>
    (evaluate_regular regular fills stmt infallible).andThen infallible fun _ infallible =>
      evaluateAll_regular regular fills stmts infallible

theorem evaluateBranches_regular (regular : nested.Regular)
    (fills : ∀ name sink, sink.isInfallible = true → (fill name sink).Regular sink) :
    (branches : List (Expr × List Stmt)) → {otherwise : Sink → Outcome} →
      (∀ {sink}, sink.isInfallible = true → (otherwise sink).Regular sink) →
      {sink : Sink} → sink.isInfallible = true →
      (evaluateBranches scene nested fill otherwise branches sink).Regular sink
  | [], _, behind, _, infallible => behind infallible
  | (condition, body) :: branches, otherwise, behind, sink, infallible => by
    refine .withValue infallible (fun _ => Expr.evaluate_error) fun v => ?_
    cases v.isTrue with
    | true => exact evaluateAll_regular regular fills body infallible
    | false => exact evaluateBranches_regular regular fills branches behind infallible

theorem evaluateOtherwise_regular (regular : nested.Regular)
    (fills : ∀ name sink, sink.isInfallible = true → (fill name sink).Regular sink) :
    (otherwise : Option (List Stmt)) → {sink : Sink} → sink.isInfallible = true →
      (evaluateOtherwise scene nested fill otherwise sink).Regular sink
  | none, _, infallible => .done infallible
  | some body, _, infallible => evaluateAll_regular regular fills body infallible

end

end Stmt

theorem Stmt.evaluateFilled_regular (regular : nested.Regular) (sections : String → Option CapturedSection)
    (depth : Nat) (stmts : List Stmt) (infallible : sink.isInfallible = true) :
    (Stmt.evaluateFilled scene nested sections depth stmts sink).Regular sink := by
  induction depth generalizing stmts sink with
  | zero =>
    unfold Stmt.evaluateFilled
    refine Stmt.evaluateAll_regular regular (fun name sink infallible => ?_) stmts infallible
    cases sections name with
    | none => exact .done infallible
    | some captured => exact .failed infallible rfl
  | succ depth ih =>
    unfold Stmt.evaluateFilled
    refine Stmt.evaluateAll_regular regular (fun name sink infallible => ?_) stmts infallible
    cases sections name with
    | none => exact .done infallible
    | some captured =>
      dsimp only
      cases parsed : Filled.parsed captured with
      | ok template => exact ih template.children infallible
      | error fault => exact .failed infallible (Problem.isRegular_of_isSyntactic (Filled.parsed_error parsed))

end

theorem Machine.run_regular {scene : Scene} {nested : Nested} {name source : String} {session declared : Session}
    {sink : Sink} (regular : nested.Regular)
    (compiles : Compiled.compile name source session = .ok (scene.template, declared))
    (infallible : sink.isInfallible = true) : (run scene nested 0 [] sink).Regular sink := by
  obtain ⟨template, statements, -, fills, same⟩ := Compiled.compile_eq_ok.mp compiles
  have generated : scene.template.listing = .ofStatements statements :=
    congrArg (fun result : Compiled × Session => result.1.listing) same
  have realizes : Realizes scene nested (Filled.codeAll none statements) _ :=
    filled_realizes (Nat.le_refl _) none template.children fills
  exact (realizes.run_alike generated sink).regular
    (Stmt.evaluateFilled_regular regular _ maxFillDepth template.children infallible)

namespace Environment

/-- A template that cannot be loaded is missing, or its file cannot be read. -/
theorem load_fails {env : Environment} {name : String} {failure : Failure} (fails : env.load name = .error failure) :
    failure = env.missing name ∨ ∃ path problem, failure = ⟨{ problem := .unreadable path }, [.io problem]⟩ := by
  unfold load at fails
  split at fails
  · cases fails
  split at fails
  · exact .inl (Except.error.inj fails).symm
  rename_i store _
  split at fails
  · rename_i cause unread
    obtain rfl := Except.error.inj fails
    cases store with
    | memory store => cases unread
    | files store =>
      simp only [Store.read, FileStore.read] at unread
      split at unread
      · cases unread
      split at unread
      · cases unread
      · cases unread
      · exact .inr ⟨_, _, (Except.error.inj unread).symm⟩
  · cases fails
  · exact .inl (Except.error.inj fails).symm

theorem load_error {env : Environment} {name : String} {failure : Failure} (fails : env.load name = .error failure) :
    (∃ path siblings, failure = .ofProblem (.noTemplate name path siblings)) ∨
      ∃ path problem, failure = ⟨{ problem := .unreadable path }, [.io problem]⟩ := by
  rcases load_fails fails with rfl | unreadable
  · exact .inl ⟨_, _, rfl⟩
  · exact .inr unreadable

theorem load_regular {env : Environment} {name : String} {failure : Failure} (fails : env.load name = .error failure) :
    failure.fault.problem.isRegular = true := by
  rcases load_error fails with ⟨path, siblings, rfl⟩ | ⟨path, problem, rfl⟩
  · rfl
  · rfl

end Environment

theorem Chain.run_regular {env : Environment} {evaluate : Evaluate} {hops : Nat} {seen : List String} {name : String}
    {source : Option String} {session : Session} {sink : Sink}
    (regular : ∀ {name source session compiled declared}, Compiled.compile name source session = .ok (compiled, declared) →
      ∀ visible sink, sink.isInfallible = true → (evaluate compiled visible sink).Regular sink)
    (infallible : sink.isInfallible = true) :
    (run env evaluate hops seen name source session sink).Regular sink := by
  induction hops generalizing seen name source session with
  | zero => exact .failed infallible rfl
  | succ hops ih =>
    rw [run]
    split
    · exact .failed infallible rfl
    cases loads : load env name source with
    | error failure =>
      cases source with
      | some text => cases loads
      | none => exact .failed infallible (Environment.load_regular loads)
    | ok text =>
      dsimp only
      cases compiles : Compiled.compile name text session with
      | error fault =>
        exact .failed infallible (Problem.isRegular_of_isSyntactic (Compiled.compile_error compiles))
      | ok result =>
        obtain ⟨compiled, declared⟩ := result
        obtain ⟨layout, sections⟩ := declared
        cases layout with
        | none => exact regular compiles _ sink infallible
        | some layout =>
          have content := regular compiles ⟨none, sections⟩ .discarding rfl
          simp only [Session.takeLayout]
          split
          · rename_i failure fails
            exact .failed infallible (content.failure failure fails)
          · exact ih

/-- Every render into a sink that takes everything is regular. -/
theorem Environment.renderAt_regular (env : Environment) (levels : Nat) (root : Value) (source : Option String)
    (name : String) (vars : Value) (session : Session) {sink : Sink} (infallible : sink.isInfallible = true) :
    (env.renderAt levels root source name vars session sink).Regular sink := by
  induction levels generalizing source name vars session sink with
  | zero =>
    rw [renderAt_eq_run]
    exact Chain.run_regular (fun _ _ _ infallible => .failed infallible rfl) infallible
  | succ levels ih =>
    rw [renderAt_eq_run]
    refine Chain.run_regular (fun compiles visible sink infallible => ?_) infallible
    exact Machine.run_regular (fun name vars session sink infallible => ih none name vars session infallible)
      compiles infallible

end TextTemplate
