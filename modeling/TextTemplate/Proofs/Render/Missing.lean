import TextTemplate.Proofs.Render.SyntaxErrors
import TextTemplate.Proofs.Store.Siblings

/-!
Templates that are not found. However deep inside of a render a template is missing, what is reported is that the
environment does not have it, with what is listed next to it: sorted, and told apart by what of it can be loaded.
-/
namespace TextTemplate

namespace Environment

variable {env : Environment} {root : Value} {levels : Nat} {request : Request} {failure : Failure}
  {sources : String → String → Prop}

/-- A failure for a template that the environment does not have, with what is reported of it. -/
def Misses (env : Environment) (failure : Failure) : Prop :=
  ∃ name, env.load name = .error (env.missing name) ∧ failure.fault.problem = (env.missing name).fault.problem

theorem misses_of_load {name : String} (fails : env.load name = .error failure)
    (notFound : failure.kind = .templateNotFound) : env.Misses failure := by
  rcases load_fails fails with rfl | ⟨path, problem, rfl⟩
  · exact ⟨name, fails, rfl⟩
  · cases notFound

theorem FailsOutside.misses (fails : FailsOutside env root levels request failure)
    (notFound : failure.kind = .templateNotFound) : env.Misses failure := by
  cases fails with
  | cycle | tooDeep | unwritten => cases notFound
  | uncompiled _ _ _ uncompiled =>
    cases notFound.symm.trans (Problem.kind_of_isSyntactic (Compiled.compile_error uncompiled))
  | @unloaded _ _ _ given _ _ _ unread =>
    cases given with
    | some text => cases unread
    | none => exact misses_of_load unread notFound

/-- A template that is not found at any depth of a render is one that the environment does not have. -/
theorem misses_of_outcome (bare : request.session.layout = none)
    (fails : (request.outcome env levels root).result = .error failure) (notFound : failure.kind = .templateNotFound) :
    env.Misses failure := by
  induction levels generalizing request failure with
  | zero => exact (outside_of_no_levels bare fails).misses notFound
  | succ levels ih =>
    obtain outside | ⟨chain, link, given, statements, content, opens, failed⟩ := outside_or_evaluated bare fails
    · exact outside.misses notFound
    obtain ⟨pc, raised⟩ := Machine.run_raised failed
    rcases raised.problem with output | ofCode | ⟨call, cause, answers, same⟩
    · cases notFound.symm.trans (congrArg Problem.kind output)
    · cases notFound.symm.trans (Problem.kind_of_isOfCode ofCode)
    · have inner : ((Request.ofCall (Chain.sessionOf request.session (chain ++ [link])) call).outcome env levels
        root).result = .error cause := answers
      obtain ⟨name, missing, reported⟩ := ih rfl inner ((congrArg Problem.kind same).symm.trans notFound)
      exact ⟨name, missing, same.trans reported⟩

theorem FailsOver.misses (fails : env.FailsOver failure sources) (notFound : failure.kind = .templateNotFound) :
    env.Misses failure := by
  cases fails.ends with
  | loading unread => exact misses_of_load unread notFound
  | compiling _ uncompiled same =>
    subst same
    cases notFound.symm.trans (Problem.kind_of_isSyntactic (Compiled.compile_error uncompiled))
  | @running root request _ fresh failed =>
    have bare : request.session.layout = none := by rw [fresh]
    exact misses_of_outcome bare failed notFound
  | writing same =>
    subst same
    cases notFound

end Environment

end TextTemplate
