import TextTemplate.Proofs.Code.Heights

/-!
Runs find their operands. What is on the stack at an instruction is what its frame says, so that no run
fails for a value that is missing or for a key that is no text, and since jumps only lead forward no
instruction is executed twice.
-/
namespace TextTemplate

/-- The problems of code that takes values which are not on the stack, or keys which are no texts. -/
def Problem.isOperand : Problem → Bool
  | .emptyStack | .keyNoText _ => true
  | .ofSyntax _ | .endlessFill _ | .layoutCycle _ | .tooDeep | .incomparable .. | .notIterable _ | .noTemplate ..
  | .brokenFragment .. | .unreadable _ | .writerFailed | .formattingFailed | .keyNoScalar _ | .unconvertible _
  | .reported .. => false

def Slot.Holds : Slot → Value → Prop
  | .key, v => ∃ name, v = .str name
  | .value, _ => True

/-- The stack holds what a frame says. -/
abbrev Frame.Holds (frame : Frame) (stack : List Value) : Prop :=
  List.Forall₂ Slot.Holds frame stack

namespace Frame

variable {first below : Frame} {stack : List Value}

theorem Holds.append (holds : Holds (first ++ below) stack) :
    ∃ top rest, stack = top ++ rest ∧ Holds first top ∧ Holds below rest := by
  induction first generalizing stack with
  | nil => exact ⟨[], stack, rfl, .nil, holds⟩
  | cons slot first ih =>
    cases holds with
    | cons one more =>
      obtain ⟨top, rest, rfl, held, behind⟩ := ih more
      exact ⟨_ :: top, rest, rfl, .cons one held, behind⟩

theorem holds_values (values : List Value) {count : Nat} (length : values.length = count) :
    Holds (List.replicate count .value) values := by
  subst length
  induction values with
  | nil => exact .nil
  | cons v values ih => exact .cons trivial ih

/-- Pairs on the stack are names and values. -/
theorem Holds.pairs {pairs : Nat} (holds : Holds (Instruction.pairSlots pairs ++ below) stack) :
    ∃ (bound : List (String × Value)) (rest : List Value),
      bound.length = pairs ∧ stack = Machine.pushPairs rest bound ∧ Holds below rest := by
  induction pairs generalizing stack with
  | zero => exact ⟨[], stack, rfl, rfl, holds⟩
  | succ pairs ih =>
    cases holds with
    | @cons _ v _ _ _ holds =>
      cases holds with
      | cons key holds =>
        obtain ⟨name, rfl⟩ := key
        obtain ⟨bound, rest, rfl, rfl, held⟩ := ih holds
        exact ⟨bound ++ [(name, v)], rest, by simp, by simp [Machine.pushPairs], held⟩

end Frame

namespace Machine

variable {scene : Scene} {nested : Nested} {pc : Nat} {stack below : List Value} {sink : Sink}
  {instruction : Instruction}

/-- Other templates do not fail for their operands. -/
def FindOperands (nested : Nested) : Prop :=
  ∀ (name : String) (vars : Value) (session : Session) (sink : Sink) (failure : Failure),
    (nested name vars session sink).result = .error failure → failure.fault.problem.isOperand = false

/-- A failure that is not for operands, unless other templates fail so. -/
def FailsOtherwise (nested : Nested) (failure : Failure) : Prop :=
  FindOperands nested → failure.fault.problem.isOperand = false

/-- What an instruction does that takes its operands from above `below` and goes on. -/
def Effect.Replaces (nested : Nested) (pc pushes : Nat) (below : List Value) : Effect → Prop
  | .goto target after _ => target = pc + 1 ∧ ∃ pushed, pushed.length = pushes ∧ after = pushed ++ below
  | .failed _ failure => FailsOtherwise nested failure

theorem replaces_effectOf {outcome : Outcome}
    (failure : ∀ failure, outcome.result = .error failure → FailsOtherwise nested failure) :
    (effectOf pc below outcome).Replaces nested pc 0 below := by
  unfold effectOf
  split
  · exact ⟨rfl, [], rfl, rfl⟩
  · rename_i cause failed
    exact failure cause failed

theorem eachItem_failure {item part : String} {items : List Value} {failure : Failure}
    (fails : (eachItem scene nested item part sink items).result = .error failure) :
    FailsOtherwise nested failure := by
  intro answers
  induction items generalizing sink with
  | nil => cases fails
  | cons v items ih =>
    rw [eachItem] at fails
    split at fails
    · exact ih fails
    · exact answers _ _ _ _ _ fails

theorem ordering_error {a b : Value} {problem : Problem} (fails : ordering a b = .error problem) :
    problem.isOperand = false := by
  unfold ordering at fails
  repeat' split at fails
  all_goals cases fails
  rfl

theorem compared_replaces (test : Ordering → Bool) (a b : Value) :
    Effect.Replaces nested pc 1 below (match ordering a b with
      | .ok order => .goto (pc + 1) (.bool (holds test order) :: below) sink
      | .error problem => .failed sink (located scene pc (.ofProblem problem))) := by
  cases compared : ordering a b with
  | ok order => exact ⟨rfl, [_], rfl, rfl⟩
  | error problem =>
    intro _
    rw [(located_alike scene pc _).problem]
    exact ordering_error compared

theorem FailsOtherwise.of_formattingFailed {failure : Failure}
    (failed : failure = .ofProblem .formattingFailed) : FailsOtherwise nested failure := by
  intro _
  rw [failed]
  rfl

theorem each_replaces (item part : String) (v : Value) :
    (execute scene nested pc (v :: below) sink (.each item part)).Replaces nested pc 0 below := by
  simp only [execute]
  cases v.items? with
  | none =>
    intro _
    rw [(located_alike scene pc _).problem]
    rfl
  | some items =>
    dsimp only
    cases result : (eachItem scene nested item part sink items).result with
    | ok =>
      rw [effectOf, result]
      exact ⟨rfl, [], rfl, rfl⟩
    | error failure =>
      rw [effectOf, result]
      intro answers
      rw [(located_alike scene pc failure).problem]
      exact eachItem_failure result answers

/-- An instruction that finds its operands takes them, or fails for something else. -/
theorem execute_replaces (plain : instruction.isPlain = true) {top : List Value}
    (enough : top.length = instruction.pops) :
    (execute scene nested pc (top ++ below) sink instruction).Replaces nested pc instruction.pushes below := by
  cases instruction
  case emitText text =>
    obtain rfl := List.length_eq_zero_iff.mp enough
    exact replaces_effectOf fun _ fails => .of_formattingFailed (write_failure fails)
  case includes name =>
    obtain rfl := List.length_eq_zero_iff.mp enough
    exact replaces_effectOf fun _ fails => .of_formattingFailed (fragment_failure fails)
  case lookup | load =>
    obtain rfl := List.length_eq_zero_iff.mp enough
    exact ⟨rfl, [_], rfl, rfl⟩
  case emit =>
    obtain ⟨a, rfl⟩ := List.length_eq_one_iff.mp enough
    exact replaces_effectOf fun _ fails => .of_formattingFailed (write_failure fails)
  case embeds name =>
    obtain ⟨a, rfl⟩ := List.length_eq_one_iff.mp enough
    exact replaces_effectOf fun _ fails => .of_formattingFailed (fragment_failure fails)
  case each item part =>
    obtain ⟨a, rfl⟩ := List.length_eq_one_iff.mp enough
    exact each_replaces item part a
  case member | applyFilter | applyDefault | not =>
    obtain ⟨a, rfl⟩ := List.length_eq_one_iff.mp enough
    exact ⟨rfl, [_], rfl, rfl⟩
  case eq | ne =>
    obtain ⟨b, a, rfl⟩ := List.length_eq_two.mp enough
    exact ⟨rfl, [_], rfl, rfl⟩
  case lt | lte | gt | gte =>
    obtain ⟨b, a, rfl⟩ := List.length_eq_two.mp enough
    exact compared_replaces _ a b
  case buildMap | jump | jumpIfFalse | jumpIfFalseOrPop | jumpIfTrueOrPop => cases plain

/-- An effect leads where an instruction, with its jump by distance, is said to lead. -/
def Effect.Agrees (nested : Nested) (pc : Nat) (exits : List (Nat × Frame)) : Effect → Prop
  | .goto target after _ => ∃ exit ∈ exits, target = pc + 1 + exit.1 ∧ exit.2.Holds after
  | .failed _ failure => FailsOtherwise nested failure

theorem execute_agrees {frame : Frame} {exits : List (Nat × Frame)} (leads : instruction.Leads frame exits)
    (holds : frame.Holds stack) :
    (execute scene nested pc stack sink (instruction.retarget (pc + 1 + ·))).Agrees nested pc exits := by
  cases leads with
  | next operands below plain enough =>
    obtain ⟨top, rest, rfl, held, behind⟩ := holds.append
    rw [Instruction.retarget_plain (Instruction.target?_of_isPlain plain)]
    have replaced : (execute scene nested pc (top ++ rest) sink instruction).Replaces nested pc
        instruction.pushes rest := execute_replaces plain (held.length_eq.symm.trans enough)
    cases effect : execute scene nested pc (top ++ rest) sink instruction with
    | failed written failure =>
      rw [effect] at replaced
      exact replaced
    | goto target after written =>
      rw [effect] at replaced
      obtain ⟨rfl, pushed, count, rfl⟩ := replaced
      exact ⟨_, List.mem_singleton_self _, rfl, List.rel_append (Frame.holds_values pushed count) behind⟩
  | key name => exact ⟨_, List.mem_singleton_self _, rfl, .cons ⟨name, rfl⟩ holds⟩
  | map pairs below =>
    obtain ⟨bound, rest, rfl, rfl, behind⟩ := holds.pairs
    simp only [execute, Instruction.retarget, popPairs_pushPairs, mapOfPairs_eq]
    exact ⟨_, List.mem_singleton_self _, rfl, .cons trivial behind⟩
  | jump distance => exact ⟨_, List.mem_singleton_self _, rfl, holds⟩
  | jumpIfFalse distance slot below =>
    cases holds with
    | @cons _ v _ rest _ behind =>
      simp only [execute, Instruction.retarget]
      cases v.isTrue with
      | true => exact ⟨_, List.mem_cons_self, rfl, behind⟩
      | false => exact ⟨_, List.mem_cons_of_mem _ List.mem_cons_self, rfl, behind⟩
  | jumpIfFalseOrPop distance below =>
    cases holds with
    | @cons _ v _ rest held behind =>
      simp only [execute, Instruction.retarget]
      cases v.isTrue with
      | true => exact ⟨_, List.mem_cons_self, rfl, behind⟩
      | false => exact ⟨_, List.mem_cons_of_mem _ List.mem_cons_self, rfl, .cons held behind⟩
  | jumpIfTrueOrPop distance below =>
    cases holds with
    | @cons _ v _ rest held behind =>
      simp only [execute, Instruction.retarget]
      cases v.isTrue with
      | true => exact ⟨_, List.mem_cons_of_mem _ List.mem_cons_self, rfl, .cons held behind⟩
      | false => exact ⟨_, List.mem_cons_self, rfl, behind⟩

/-- A run of the code from an instruction on, with the instructions that it executes and what the stack is
there. It follows jumps wherever they lead. -/
inductive Executes (scene : Scene) (nested : Nested) :
    Nat → List Value → Sink → List (Nat × List Value) → Outcome → Prop where
  | halts {pc : Nat} {stack : List Value} {sink : Sink} :
    scene.template.listing.get? pc = none → Executes scene nested pc stack sink [] ⟨sink, .ok ()⟩
  | fails {pc : Nat} {stack : List Value} {sink written : Sink} {instruction : Instruction} {failure : Failure} :
    scene.template.listing.get? pc = some instruction →
    execute scene nested pc stack sink instruction = .failed written failure →
    Executes scene nested pc stack sink [(pc, stack)] ⟨written, .error failure⟩
  | goes {pc target : Nat} {stack after : List Value} {sink written : Sink} {instruction : Instruction}
    {later : List (Nat × List Value)} {outcome : Outcome} :
    scene.template.listing.get? pc = some instruction →
    execute scene nested pc stack sink instruction = .goto target after written →
    Executes scene nested target after written later outcome →
    Executes scene nested pc stack sink ((pc, stack) :: later) outcome

section
variable {statements : List Filled} {code : List Instruction} {frames : List Frame} {frame : Frame}
  {trace : List (Nat × List Value)} {outcome : Outcome}

/-- The machine runs the code in this way. -/
theorem executes_run (generated : scene.template.listing = .ofStatements statements) (pc : Nat)
    (stack : List Value) (sink : Sink) :
    ∃ trace, Executes scene nested pc stack sink trace (run scene nested pc stack sink) := by
  induction left : scene.template.listing.instructions.size - pc using Nat.strongRecOn
    generalizing pc stack sink with
  | ind left ih =>
    cases found : scene.template.listing.get? pc with
    | none =>
      rw [run_end (Array.getElem?_eq_none_iff.mp found)]
      exact ⟨_, .halts found⟩
    | some instruction =>
      have inside := (Array.getElem?_eq_some_iff.mp found).1
      cases effect : execute scene nested pc stack sink instruction with
      | failed written failure =>
        rw [run_failed found effect]
        exact ⟨_, .fails found effect⟩
      | goto target after written =>
        have forward := Machine.forward generated found effect
        rw [run_goto found effect forward]
        obtain ⟨later, rest⟩ := ih _ (by omega) target after written rfl
        exact ⟨_, .goes found effect rest⟩

/-- There is one run. -/
theorem Executes.unique {other : List (Nat × List Value)} {outcome' : Outcome}
    (executes : Executes scene nested pc stack sink trace outcome)
    (executes' : Executes scene nested pc stack sink other outcome') : other = trace ∧ outcome' = outcome := by
  induction executes generalizing other outcome' with
  | halts found =>
    cases executes' with
    | halts => exact ⟨rfl, rfl⟩
    | fails found' | goes found' => cases found.symm.trans found'
  | fails found effect =>
    cases executes' with
    | halts found' => cases found.symm.trans found'
    | fails found' effect' =>
      cases found.symm.trans found'
      cases effect.symm.trans effect'
      exact ⟨rfl, rfl⟩
    | goes found' effect' =>
      cases found.symm.trans found'
      cases effect.symm.trans effect'
  | goes found effect _ ih =>
    cases executes' with
    | halts found' => cases found.symm.trans found'
    | fails found' effect' =>
      cases found.symm.trans found'
      cases effect.symm.trans effect'
    | goes found' effect' rest =>
      cases found.symm.trans found'
      cases effect.symm.trans effect'
      obtain ⟨rfl, rfl⟩ := ih rest
      exact ⟨rfl, rfl⟩

/-- Instructions are executed in their order. -/
theorem Executes.increasing (generated : scene.template.listing = .ofStatements statements)
    (executes : Executes scene nested pc stack sink trace outcome) :
    (trace.map Prod.fst).Pairwise (· < ·) ∧ ∀ index ∈ trace.map Prod.fst, pc ≤ index := by
  induction executes with
  | halts => exact ⟨.nil, by simp⟩
  | fails => exact ⟨List.pairwise_singleton _ _, by simp⟩
  | @goes pc target stack after sink written instruction later outcome found effect _ ih =>
    obtain ⟨increasing, behind⟩ := ih
    have forward := Machine.forward generated found effect
    have later (index : Nat) (executed : index ∈ later.map Prod.fst) : pc < index :=
      Nat.lt_of_lt_of_le forward (behind index executed)
    rw [List.map_cons]
    refine ⟨List.pairwise_cons.mpr ⟨later, increasing⟩, List.forall_mem_cons.mpr ⟨Nat.le_refl pc, ?_⟩⟩
    exact fun index executed => Nat.le_of_lt (later index executed)

/-- An effect leads to a place where the stack holds what the frame says. -/
def Effect.Meets (nested : Nested) (frames : List Frame) : Effect → Prop
  | .goto target after _ => ∃ frame, frames[target]? = some frame ∧ frame.Holds after
  | .failed _ failure => FailsOtherwise nested failure

theorem execute_meets (hasFrames : scene.template.listing.HasFrames code frames)
    (found : scene.template.listing.get? pc = some instruction) (there : frames[pc]? = some frame)
    (holds : frame.Holds stack) : (execute scene nested pc stack sink instruction).Meets nested frames := by
  obtain ⟨relative, other, exits, rfl, same, leads, agree⟩ := hasFrames.leads found
  obtain rfl : frame = other := Option.some.inj (there.symm.trans same)
  have agrees : (execute scene nested pc stack sink (relative.retarget (pc + 1 + ·))).Agrees nested pc exits :=
    execute_agrees leads holds
  cases effect : execute scene nested pc stack sink (relative.retarget (pc + 1 + ·)) with
  | failed written failure =>
    rw [effect] at agrees
    exact agrees
  | goto target after written =>
    rw [effect] at agrees
    obtain ⟨exit, led, rfl, held⟩ := agrees
    exact ⟨exit.2, agree exit led, held⟩

/-- Wherever a run executes an instruction, the stack holds what the frame there says. -/
theorem Executes.holds (hasFrames : scene.template.listing.HasFrames code frames)
    (executes : Executes scene nested pc stack sink trace outcome) (there : frames[pc]? = some frame)
    (holds : frame.Holds stack) :
    (∀ moment ∈ trace, ∃ (instruction : Instruction) (frame : Frame),
      scene.template.listing.get? moment.1 = some instruction ∧ frames[moment.1]? = some frame ∧
      frame.Holds moment.2) ∧
    ∀ failure, outcome.result = .error failure → FailsOtherwise nested failure := by
  induction executes generalizing frame with
  | halts => exact ⟨by simp, fun _ fails => by cases fails⟩
  | @fails pc stack sink written instruction failure found effect =>
    have meets : Effect.Meets nested frames (.failed written failure) :=
      effect ▸ execute_meets hasFrames found there holds
    refine ⟨List.forall_mem_singleton.mpr ⟨_, frame, found, there, holds⟩, fun cause fails => ?_⟩
    obtain rfl : failure = cause := Except.error.inj fails
    exact meets
  | @goes pc target stack after sink written instruction later outcome found effect _ ih =>
    have meets : Effect.Meets nested frames (.goto target after written) :=
      effect ▸ execute_meets hasFrames found there holds
    obtain ⟨next, reached, held⟩ := meets
    obtain ⟨rest, failure⟩ := ih reached held
    exact ⟨List.forall_mem_cons.mpr ⟨⟨_, frame, found, there, holds⟩, rest⟩, failure⟩

/-- A run of generated code does not fail for operands, as long as other templates do not. -/
theorem run_failure (generated : scene.template.listing = .ofStatements statements) {failure : Failure}
    (fails : (run scene nested 0 [] sink).result = .error failure) : FailsOtherwise nested failure := by
  obtain ⟨code, frames, hasFrames, -⟩ := Listing.ofStatements_hasFrames statements
  obtain ⟨trace, executes⟩ : ∃ trace, Executes scene nested 0 [] sink trace (run scene nested 0 [] sink) :=
    executes_run generated 0 [] sink
  rw [← generated] at hasFrames
  exact (executes.holds hasFrames hasFrames.start .nil).2 failure fails

end

end Machine

theorem Problem.isOperand_of_isSyntactic {problem : Problem} (syntactic : problem.isSyntactic = true) :
    problem.isOperand = false := by
  cases problem <;> simp_all [isSyntactic, isOperand]

theorem Chain.run_failure {env : Environment} {evaluate : Evaluate} {hops : Nat} {seen : List String}
    {name : String} {source : Option String} {session : Session} {sink : Sink} {failure : Failure}
    (evaluated : ∀ {name source session compiled declared},
      Compiled.compile name source session = .ok (compiled, declared) → ∀ visible sink failure,
        (evaluate compiled visible sink).result = .error failure → failure.fault.problem.isOperand = false)
    (fails : (run env evaluate hops seen name source session sink).result = .error failure) :
    failure.fault.problem.isOperand = false := by
  induction hops generalizing seen name source session with
  | zero =>
    obtain rfl := Except.error.inj fails
    rfl
  | succ hops ih =>
    rw [run] at fails
    split at fails
    · obtain rfl := Except.error.inj fails
      rfl
    cases loads : load env name source with
    | error cause =>
      rw [loads] at fails
      obtain rfl := Except.error.inj fails
      cases source with
      | some text => cases loads
      | none => rcases Environment.load_error loads with ⟨path, siblings, rfl⟩ | ⟨path, problem, rfl⟩ <;> rfl
    | ok text =>
      rw [loads] at fails
      dsimp only at fails
      cases compiles : Compiled.compile name text session with
      | error fault =>
        rw [compiles] at fails
        obtain rfl := Except.error.inj fails
        exact Problem.isOperand_of_isSyntactic (Compiled.compile_error compiles)
      | ok result =>
        obtain ⟨compiled, declared⟩ := result
        obtain ⟨layout, sections⟩ := declared
        rw [compiles] at fails
        cases layout with
        | none => exact evaluated compiles _ sink failure fails
        | some layout =>
          simp only [Session.takeLayout] at fails
          split at fails
          · rename_i cause broken
            obtain rfl := Except.error.inj fails
            exact evaluated compiles _ .discarding _ broken
          · exact ih fails

/-- No render fails for operands, however deep the template that fails is. -/
theorem Environment.renderAt_failure {env : Environment} {root : Value} (levels : Nat) {source : Option String}
    {name : String} {vars : Value} {session : Session} {sink : Sink} {failure : Failure}
    (fails : (env.renderAt levels root source name vars session sink).result = .error failure) :
    failure.fault.problem.isOperand = false := by
  induction levels generalizing source name vars session sink failure with
  | zero =>
    rw [renderAt_eq_run] at fails
    refine Chain.run_failure (fun _ _ _ cause deep => ?_) fails
    obtain rfl := Except.error.inj deep
    rfl
  | succ levels ih =>
    rw [renderAt_eq_run] at fails
    refine Chain.run_failure (fun {_ _ _ compiled _} compiles visible sink cause failed => ?_) fails
    obtain ⟨template, statements, -, -, same⟩ := Compiled.compile_eq_ok.mp compiles
    have generated : compiled.listing = .ofStatements statements :=
      congrArg (fun result : Compiled × Session => result.1.listing) same
    have ran : (Machine.run ⟨env, compiled, visible, root, vars⟩ (env.renderAt levels root none) 0 []
        sink).result = .error cause := failed
    exact Machine.run_failure generated ran fun _ _ _ _ _ => ih

end TextTemplate
