import TextTemplate.Proofs.Evaluation

/-!
What instructions do to the run. Most of them neither write nor render another template: they do the
same whatever is behind the sink and however other templates are rendered.
-/
namespace TextTemplate

/-- Whether an instruction only works on the stack or leads elsewhere. -/
def Instruction.isQuiet : Instruction → Bool
  | .emitText _ | .emit | .each .. | .includes _ | .embeds _ => false
  | _ => true

/-- Where an instruction may jump to. -/
def Instruction.target? : Instruction → Option Nat
  | .jump target | .jumpIfFalse target | .jumpIfFalseOrPop target | .jumpIfTrueOrPop target => some target
  | _ => none

namespace Machine

/-- The effect with another sink. -/
def Effect.into (sink : Sink) : Effect → Effect
  | .goto target stack _ => .goto target stack sink
  | .failed _ failure => .failed sink failure

variable {scene : Scene} {nested : Nested} {pc : Nat} {stack : List Value} {sink : Sink} {instruction : Instruction}

theorem execute_quiet (quiet : instruction.isQuiet = true) (other : Nested) :
    execute scene nested pc stack sink instruction =
      (execute scene other pc stack .discarding instruction).into sink := by
  cases instruction
  case emitText | emit | each | includes | embeds => cases quiet
  all_goals
    simp only [execute]
    repeat' split
    all_goals rfl

/-- What every effect of an instruction is: it leads to the next instruction or to a target of the
instruction, or fails with the place of the instruction or because something could not be written. -/
def Effect.Fits (scene : Scene) (pc : Nat) (instruction : Instruction) : Effect → Prop
  | .goto target _ _ => target = pc + 1 ∨ instruction.target? = some target
  | .failed _ failure => (∃ cause, failure = located scene pc cause) ∨ failure.fault.problem = .formattingFailed

theorem fits_effectOf {outcome : Outcome}
    (failure : ∀ failure, outcome.result = .error failure → failure = .ofProblem .formattingFailed) :
    (effectOf pc stack outcome).Fits scene pc instruction := by
  unfold effectOf
  split
  · exact .inl rfl
  · rename_i cause failed
    obtain rfl := failure cause failed
    exact .inr rfl

theorem write_failure {s : String} {failure : Failure} (fails : (sink.write s).result = .error failure) :
    failure = .ofProblem .formattingFailed := by
  unfold Sink.write at fails
  split at fails
  · cases fails
  · cases fails
  · cases fails
  · dsimp only at fails
    split at fails
    · cases fails
    · exact (Except.error.inj fails).symm

theorem fragment_failure {tag name : String} {vars : Value} {failure : Failure}
    (fails : (fragment scene nested tag name vars sink).result = .error failure) :
    failure = .ofProblem .formattingFailed := by
  unfold fragment at fails
  split at fails
  · cases fails
  · dsimp only at fails
    split at fails
    · exact write_failure fails
    · exact write_failure fails

theorem execute_fits : (execute scene nested pc stack sink instruction).Fits scene pc instruction := by
  by_cases quiet : instruction.isQuiet = true
  · rw [execute_quiet quiet nested]
    cases instruction
    all_goals
      simp only [execute]
      repeat' split
      all_goals first
        | exact .inl rfl
        | exact .inr rfl
        | exact .inl ⟨_, rfl⟩
        | cases quiet
  cases instruction
  case emitText text => exact fits_effectOf fun _ => write_failure
  case emit =>
    cases stack with
    | nil => exact .inl ⟨_, rfl⟩
    | cons v stack => exact fits_effectOf fun _ => write_failure
  case includes name => exact fits_effectOf fun _ => fragment_failure
  case embeds name =>
    cases stack with
    | nil => exact .inl ⟨_, rfl⟩
    | cons v stack => exact fits_effectOf fun _ => fragment_failure
  case each item part =>
    cases stack with
    | nil => exact .inl ⟨_, rfl⟩
    | cons v stack =>
      simp only [execute]
      cases v.items? with
      | none => exact .inl ⟨_, rfl⟩
      | some items =>
        dsimp only
        generalize eachItem scene nested item part sink items = outcome
        obtain ⟨after, result⟩ := outcome
        cases result with
        | ok => exact .inl rfl
        | error failure => exact .inl ⟨_, rfl⟩
  all_goals exact absurd rfl quiet

/-- A render of another template that an instruction asks for. -/
structure Call where
  name : String
  vars : Value
  sink : Sink

/-- Other templates see the sections of a scene, but not its layout. -/
def Call.answer (scene : Scene) (nested : Nested) (call : Call) : Outcome :=
  nested call.name call.vars scene.session.fork call.sink

/-- The renders for the items of a collection, up to the first that fails. -/
def itemCalls (scene : Scene) (nested : Nested) (item part : String) (sink : Sink) : List Value → List Call
  | [] => []
  | v :: items =>
    let call : Call := ⟨part, scene.root.withEntry item v, sink⟩
    call :: match (call.answer scene nested).result with
      | .ok () => itemCalls scene nested item part (call.answer scene nested).sink items
      | .error _ => []

def fragmentCalls (name : String) (vars : Value) (sink : Sink) : List Call :=
  if sink.isDiscarding then [] else [⟨name, vars, .text ""⟩]

/-- The renders that an instruction asks for. -/
def calls (scene : Scene) (nested : Nested) (stack : List Value) (sink : Sink) : Instruction → List Call
  | .each item part =>
    match stack with
    | v :: _ => itemCalls scene nested item part sink (v.items?.getD [])
    | [] => []
  | .includes name => fragmentCalls name scene.vars sink
  | .embeds name =>
    match stack with
    | v :: _ => fragmentCalls name (.merge [scene.root, v]) sink
    | [] => []
  | _ => []

variable {other : Nested}

theorem eachItem_cons {item part : String} {v : Value} {items : List Value} :
    eachItem scene nested item part sink (v :: items) =
      (nested part (scene.root.withEntry item v) scene.session.fork sink).andThen fun sink =>
        eachItem scene nested item part sink items := rfl

theorem eachItem_congr {item part : String} {items : List Value}
    (same : ∀ call ∈ itemCalls scene nested item part sink items,
      call ∈ itemCalls scene other item part sink items → call.answer scene other = call.answer scene nested) :
    eachItem scene other item part sink items = eachItem scene nested item part sink items ∧
      itemCalls scene other item part sink items = itemCalls scene nested item part sink items := by
  induction items generalizing sink with
  | nil => exact ⟨rfl, rfl⟩
  | cons v items ih =>
    have answer : Call.answer scene other ⟨part, scene.root.withEntry item v, sink⟩ =
        Call.answer scene nested ⟨part, scene.root.withEntry item v, sink⟩ :=
      same _ List.mem_cons_self List.mem_cons_self
    have rest : ∀ call ∈ (itemCalls scene nested item part sink (v :: items)).tail,
        call ∈ (itemCalls scene other item part sink (v :: items)).tail →
        call.answer scene other = call.answer scene nested := fun call found found' =>
      same call (List.mem_of_mem_tail found) (List.mem_of_mem_tail found')
    rw [itemCalls, itemCalls] at rest
    rw [eachItem_cons, eachItem_cons, itemCalls, itemCalls]
    simp only [Call.answer] at answer rest ⊢
    rw [answer] at rest ⊢
    generalize nested part (scene.root.withEntry item v) scene.session.fork sink = outcome at rest ⊢
    obtain ⟨after, result⟩ := outcome
    cases result with
    | error failure => exact ⟨rfl, rfl⟩
    | ok =>
      obtain ⟨items, calls⟩ := ih rest
      exact ⟨items, congrArg _ calls⟩

theorem fragment_congr {tag name : String} {vars : Value}
    (same : ∀ call ∈ fragmentCalls name vars sink, call.answer scene other = call.answer scene nested) :
    fragment scene other tag name vars sink = fragment scene nested tag name vars sink := by
  unfold fragment
  split
  · rfl
  · rename_i shown
    have answer : other name vars scene.session.fork (.text "") = nested name vars scene.session.fork (.text "") :=
      same ⟨name, vars, .text ""⟩ (by rw [fragmentCalls, if_neg shown]; exact List.mem_singleton_self _)
    rw [answer]

/-- An instruction only depends on the answers to what it asks for. -/
theorem execute_congr
    (same : ∀ call ∈ calls scene nested stack sink instruction, call ∈ calls scene other stack sink instruction →
      call.answer scene other = call.answer scene nested) :
    execute scene other pc stack sink instruction = execute scene nested pc stack sink instruction ∧
      calls scene other stack sink instruction = calls scene nested stack sink instruction := by
  by_cases quiet : instruction.isQuiet = true
  · have first : execute scene other pc stack sink instruction = _ := execute_quiet quiet nested
    have second : execute scene nested pc stack sink instruction = _ := execute_quiet quiet nested
    rw [first, second]
    cases instruction
    case each => cases quiet
    all_goals exact ⟨rfl, rfl⟩
  cases instruction
  case emitText text => exact ⟨rfl, rfl⟩
  case emit => exact ⟨rfl, rfl⟩
  case includes name =>
    refine ⟨?_, rfl⟩
    rw [execute, execute, fragment_congr fun call found => same call found found]
  case embeds name =>
    cases stack with
    | nil => exact ⟨rfl, rfl⟩
    | cons v stack =>
      refine ⟨?_, rfl⟩
      rw [execute, execute, fragment_congr fun call found => same call found found]
  case each item part =>
    cases stack with
    | nil => exact ⟨rfl, rfl⟩
    | cons v stack =>
      simp only [execute, calls] at same ⊢
      cases found : v.items? with
      | none => exact ⟨rfl, rfl⟩
      | some items =>
        rw [found] at same
        obtain ⟨iterated, asked⟩ := eachItem_congr same
        rw [Option.getD_some] at iterated
        refine ⟨?_, asked⟩
        dsimp only
        rw [iterated]
  all_goals exact absurd rfl quiet

/-- The states that a run comes through on its way from the first instruction. -/
inductive Reaches (scene : Scene) (nested : Nested) (start : Sink) : Nat → List Value → Sink → Prop where
  | start : Reaches scene nested start 0 [] start
  | next {pc target : Nat} {stack after : List Value} {sink written : Sink} {instruction : Instruction} :
    Reaches scene nested start pc stack sink →
    scene.template.listing.get? pc = some instruction →
    execute scene nested pc stack sink instruction = .goto target after written →
    pc < target →
    Reaches scene nested start target after written

end Machine

end TextTemplate
