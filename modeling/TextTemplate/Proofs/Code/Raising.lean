import TextTemplate.Proofs.Code.Failing

/-!
Where the failures of a run come from, whatever the code is. An instruction fails on its own, with its output, or
with a render that it asks for; a run fails as one of its instructions does.
-/
namespace TextTemplate

/-- The problems that instructions have on their own. -/
def Problem.isOfCode : Problem → Bool
  | .incomparable .. | .notIterable _ | .keyNoText _ | .emptyStack => true
  | _ => false

theorem Problem.kind_of_isOfCode {problem : Problem} (ofCode : problem.isOfCode = true) :
    problem.kind = .executionError := by
  cases problem with
  | incomparable | notIterable | keyNoText | emptyStack => rfl
  | _ => cases ofCode

namespace Machine

variable {scene : Scene} {nested : Nested} {pc : Nat} {stack : List Value} {sink : Sink} {instruction : Instruction}
  {failure : Failure}

/-- What an instruction can fail with. -/
inductive Raised (scene : Scene) (nested : Nested) (pc : Nat) : Failure → Prop where
  | output : Raised scene nested pc (.ofProblem .formattingFailed)
  | own {problem : Problem} : problem.isOfCode = true →
    Raised scene nested pc (located scene pc (.ofProblem problem))
  | answer {call : Call} {failure : Failure} : (call.answer scene nested).result = .error failure →
    Raised scene nested pc (located scene pc failure)

theorem Raised.problem (raised : Raised scene nested pc failure) :
    failure.fault.problem = .formattingFailed ∨ failure.fault.problem.isOfCode = true ∨
      ∃ call cause, (Call.answer scene nested call).result = .error cause ∧
        failure.fault.problem = cause.fault.problem := by
  cases raised with
  | output => exact .inl rfl
  | own ofCode =>
    refine .inr (.inl ?_)
    rw [(located_alike scene pc _).problem]
    exact ofCode
  | answer answers => exact .inr (.inr ⟨_, _, answers, (located_alike scene pc _).problem⟩)

/-- An effect that goes on, or a failure that comes from one of these. -/
def Effect.Raises (scene : Scene) (nested : Nested) (pc : Nat) : Effect → Prop
  | .goto .. => True
  | .failed _ failure => Raised scene nested pc failure

theorem ordering_own {a b : Value} {problem : Problem} (fails : ordering a b = .error problem) :
    problem.isOfCode = true := by
  unfold ordering at fails
  repeat' split at fails
  all_goals cases fails
  rfl

theorem mapOfPairs_own {fields : Fields Value} {pairs : List (Value × Value)} {problem : Problem}
    (fails : mapOfPairs fields pairs = .error problem) : problem.isOfCode = true := by
  fun_induction mapOfPairs fields pairs with
  | case1 => cases fails
  | case2 _ _ _ _ ih => exact ih fails
  | case3 =>
    cases fails
    rfl

theorem effectOf_raises {outcome : Outcome}
    (output : ∀ failure, outcome.result = .error failure → failure = .ofProblem .formattingFailed) :
    (effectOf pc stack outcome).Raises scene nested pc := by
  unfold effectOf
  split
  · trivial
  · rename_i cause failed
    obtain rfl := output cause failed
    exact .output

theorem execute_raises : (execute scene nested pc stack sink instruction).Raises scene nested pc := by
  by_cases quiet : instruction.isQuiet = true
  · cases instruction
    case emitText | emit | each | includes | embeds => cases quiet
    all_goals
      simp only [execute]
      repeat' split
      all_goals first
        | trivial
        | exact Raised.own rfl
        | exact Raised.own (ordering_own (by assumption))
        | exact Raised.own (mapOfPairs_own (by assumption))
  cases instruction
  case emitText text => exact effectOf_raises fun _ => write_failure
  case emit =>
    cases stack with
    | nil => exact Raised.own rfl
    | cons v stack => exact effectOf_raises fun _ => write_failure
  case includes name => exact effectOf_raises fun _ => fragment_failure
  case embeds name =>
    cases stack with
    | nil => exact Raised.own rfl
    | cons v stack => exact effectOf_raises fun _ => fragment_failure
  case each item part =>
    cases stack with
    | nil => exact Raised.own rfl
    | cons v stack =>
      simp only [execute]
      cases v.items? with
      | none => exact Raised.own rfl
      | some items =>
        dsimp only
        cases ends : eachItem scene nested item part sink items with
        | mk after result =>
          cases result with
          | ok => trivial
          | error failure =>
            obtain ⟨call, -, failed⟩ := eachItem_fails ends
            exact Raised.answer failed
  all_goals exact absurd rfl quiet

theorem run_raised (fails : (run scene nested pc stack sink).result = .error failure) :
    ∃ pc, Raised scene nested pc failure := by
  fun_induction run scene nested pc stack sink with
  | case1 pc stack sink inside after cause effect =>
    have raises : (execute scene nested pc stack sink scene.template.listing.instructions[pc]).Raises scene nested pc :=
      execute_raises
    rw [effect] at raises
    obtain rfl := Except.error.inj fails
    exact ⟨pc, raises⟩
  | case2 _ _ _ _ _ _ _ _ _ ih => exact ih fails
  | case3 => cases fails
  | case4 => cases fails

end Machine

end TextTemplate
