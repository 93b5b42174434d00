import TextTemplate.Proofs.Render.Places

/-!
What execution errors say of themselves. The template that is evaluated when one is raised adds its place
and its code, and templates around it leave both as they are. Only a cycle of layouts can be found where no
template is evaluated.
-/
namespace TextTemplate

namespace Scene

variable {scene : Scene} {origin : Origin} {failure : Failure}

theorem report_problem : (scene.report origin failure).fault.problem = failure.fault.problem := by
  cases placed : failure.fault.place with
  | none =>
    obtain ⟨listing, reported⟩ := scene.report_unplaced placed
    rw [reported]
  | some place =>
    obtain ⟨listing, reported⟩ := scene.report_placed placed
    rw [reported]

/-- An execution error gets the code of the template that runs, unless it shows code already. -/
theorem report_listing (execution : failure.kind = .executionError) :
    (scene.report origin failure).fault.listing = some (failure.fault.listing.getD scene.template.form) := by
  obtain ⟨⟨problem, place, source, listing⟩, causes⟩ := failure
  obtain ⟨line, template⟩ := origin
  have kind : problem.kind = .executionError := execution
  cases place <;> cases template <;> cases source <;> cases listing <;>
    simp [report, Fault.placedAt, Fault.withSource, Fault.withListing, Fault.kind, kind]

end Scene

namespace Environment

/-- The template that is evaluated when a problem of a render is raised, the innermost one. What is raised
for an item before any template of it is evaluated is raised in the template that goes over the items. -/
inductive RaisedIn (env : Environment) (root : Value) : Nat → Request → Compiled → Problem → Prop where
  | own {levels : Nat} {request : Request} {link : Link} {scene : Scene} {culprit : Culprit} {problem : Problem} :
    Stops env root levels request link scene culprit (.ofProblem problem) → culprit.call = none →
    RaisedIn env root (levels + 1) request scene.template problem
  | before {levels : Nat} {request : Request} {link : Link} {scene : Scene} {culprit : Culprit} {failure : Failure}
    {call : Machine.Call} :
    Stops env root levels request link scene culprit failure → culprit.call = some call →
    FailsOutside env root levels (.ofCall scene.session call) failure →
    RaisedIn env root (levels + 1) request scene.template failure.fault.problem
  | inside {levels : Nat} {request : Request} {link : Link} {scene : Scene} {culprit : Culprit} {failure : Failure}
    {call : Machine.Call} {template : Compiled} {problem : Problem} :
    Stops env root levels request link scene culprit failure → culprit.call = some call →
    RaisedIn env root levels (.ofCall scene.session call) template problem →
    RaisedIn env root (levels + 1) request template problem

/-- A failure names a place and shows the code of the template that its problem was raised in. -/
structure ExplainedBy (env : Environment) (root : Value) (levels : Nat) (request : Request) (failure : Failure)
    (template : Compiled) (place : Place) : Prop where
  raised : RaisedIn env root levels request template failure.fault.problem
  placed : failure.fault.place = some place
  counted : 1 ≤ place.line
  listed : failure.fault.listing = some template.form

variable {env : Environment} {root : Value} {levels : Nat} {request : Request} {link : Link} {scene : Scene}
  {culprit : Culprit} {failure : Failure} {texts : String → String → Prop}

/-- Outside of all templates an execution error says nothing but its problem. -/
theorem FailsOutside.execution (fails : FailsOutside env root levels request failure)
    (execution : failure.kind = .executionError) :
    (levels = 0 ∧ failure = .ofProblem .tooDeep) ∨
      ∃ chain given name, Chain.Content env request.session (env.evaluateAt levels root request.vars) request.name
        request.source chain name given ∧ name ∈ Chain.names chain ∧ failure = .ofProblem (.layoutCycle name) := by
  cases fails with
  | cycle content again => exact .inr ⟨_, _, _, content, again, rfl⟩
  | tooDeep => exact .inl ⟨rfl, rfl⟩
  | unwritten => cases execution
  | uncompiled _ _ _ uncompiled =>
    cases execution.symm.trans (Problem.kind_of_isSyntactic (Compiled.compile_error uncompiled))
  | @unloaded _ _ _ given _ _ _ unread =>
    cases given with
    | some text => cases unread
    | none =>
      rcases load_error unread with ⟨path, siblings, rfl⟩ | ⟨path, problem, rfl⟩
      · cases execution
      · cases execution

theorem FailsOutside.unplaced (fails : FailsOutside env root levels request failure)
    (execution : failure.kind = .executionError) : failure.fault.place = none ∧ failure.fault.listing = none := by
  obtain ⟨-, rfl⟩ | ⟨chain, given, name, -, -, rfl⟩ := fails.execution execution
  · exact ⟨rfl, rfl⟩
  · exact ⟨rfl, rfl⟩

/-- A template that stops with an execution error that says nothing yet explains it. -/
theorem Stops.explained (stops : Stops env root levels request link scene culprit failure)
    (from_ : request.session.CapturedFrom texts) (execution : failure.kind = .executionError)
    (unplaced : failure.fault.place = none) (unlisted : failure.fault.listing = none)
    (raised : RaisedIn env root (levels + 1) request scene.template failure.fault.problem) :
    ∃ template place, ExplainedBy env root (levels + 1) request (scene.report culprit.origin failure) template place := by
  obtain ⟨text, -, here⟩ := stops.at from_
  obtain ⟨listing, reported⟩ := stops.report_unplaced unplaced
  refine ⟨scene.template, ⟨culprit.template.getD link.name, culprit.node.line⟩, ?_, ?_, here.hasLine.1, ?_⟩
  · rw [Scene.report_problem]
    exact raised
  · rw [reported]
  · rw [Scene.report_listing execution, unlisted, Option.getD_none]

end Environment

end TextTemplate
