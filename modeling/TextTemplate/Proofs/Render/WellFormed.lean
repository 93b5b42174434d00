import TextTemplate.Proofs.Render.Operands

/-!
Generated code is well formed. All its jumps have found their targets, the stack has one height at each
instruction, and a run goes through the instructions in their order and finds what they take.
-/
namespace TextTemplate

/-- Jumps lead forward and not beyond the end, and the stack has a height at each instruction, which is
zero at the boundaries of statements and at the end. -/
structure Listing.WellFormed (listing : Listing) (boundaries : List Nat) (height : Nat → Nat) : Prop where
  jumps {index target : Nat} {instruction : Instruction} : listing.get? index = some instruction →
    instruction.target? = some target → index < target ∧ target ≤ listing.size
  leveled : listing.Leveled height
  boundaries : ∀ boundary ∈ boundaries, boundary ≤ listing.size ∧ height boundary = 0
  ending : height listing.size = 0

theorem Listing.wellFormed_ofStatements (statements : List Filled) :
    ∃ height, (ofStatements statements).WellFormed (Filled.boundaries none statements) height := by
  obtain ⟨code, frames, hasFrames, empty⟩ := ofStatements_hasFrames statements
  refine ⟨_, fun stands jump => ⟨forward_ofStatements stands jump, hasFrames.target_le_size stands jump⟩,
    hasFrames.leveled, fun boundary found => ?_, ?_⟩
  · have there := empty boundary found
    exact ⟨hasFrames.le_size there, by rw [there]; rfl⟩
  · rw [hasFrames.size_eq, hasFrames.framed.end_eq]
    rfl

namespace Machine

/-- The one run of some code: it executes instructions in their order, each with the stack as high as it
is there, and does not fail for operands unless other templates do. -/
structure Orderly (scene : Scene) (nested : Nested) (sink : Sink) (height : Nat → Nat)
    (trace : List (Nat × List Value)) : Prop where
  executes : Executes scene nested 0 [] sink trace (run scene nested 0 [] sink)
  unique {other : List (Nat × List Value)} {outcome : Outcome} :
    Executes scene nested 0 [] sink other outcome → other = trace ∧ outcome = run scene nested 0 [] sink
  increasing : (trace.map Prod.fst).Pairwise (· < ·)
  operands : ∀ moment ∈ trace, ∃ instruction, scene.template.listing.get? moment.1 = some instruction ∧
    instruction.pops ≤ moment.2.length ∧ moment.2.length = height moment.1
  failure {failure : Failure} : (run scene nested 0 [] sink).result = .error failure → FailsOtherwise nested failure

theorem exists_orderly {scene : Scene} {statements : List Filled}
    (generated : scene.template.listing = .ofStatements statements) {boundaries : List Nat} {height : Nat → Nat}
    (wellFormed : scene.template.listing.WellFormed boundaries height) (nested : Nested) (sink : Sink) :
    ∃ trace, Orderly scene nested sink height trace := by
  obtain ⟨trace, executes⟩ : ∃ trace, Executes scene nested 0 [] sink trace _ := executes_run generated 0 [] sink
  obtain ⟨code, frames, hasFrames, -⟩ := Listing.ofStatements_hasFrames statements
  rw [← generated] at hasFrames
  obtain ⟨holds, -⟩ := executes.holds hasFrames hasFrames.start .nil
  refine ⟨trace, executes, executes.unique, (executes.increasing generated).1, fun moment found => ?_,
    run_failure generated⟩
  obtain ⟨instruction, frame, stands, there, held⟩ := holds moment found
  have level : frame.length = height moment.1 :=
    (wellFormed.leveled.path_iff.mp (hasFrames.path_of_frame there)).2
  rw [← held.length_eq, level]
  exact ⟨instruction, stands, wellFormed.leveled.pops_le stands, rfl⟩

end Machine

namespace Emitter

/-- Of every template and every section that is read, and whatever sections fill it: no jump is left with a
placeholder and no block open, all jumps lead forward and not beyond the end, all paths to an instruction
come with one height of the stack, which is enough for it and zero between statements. So a run executes
no instruction twice, and no render fails for a value that is not on the stack or a key that is no text. -/
theorem generate_wellFormed {source : String} {template : Template} {session : Session} {statements : List Filled}
    (parsed : (∃ name, Template.parse source name = .ok template) ∨
      ∃ name line column, Template.parsePart source name line column = .ok template)
    (filled : Filled.ofStmts session maxFillDepth template.children = .ok statements) :
    (generate statements).listing = .ofStatements statements ∧ (generate statements).blocks = [] ∧
    ((generate statements).listing.size < placeholder → ∀ (index : Nat) (instruction : Instruction),
      (generate statements).listing.get? index = some instruction → instruction.target? ≠ some placeholder) ∧
    ∃ height, (generate statements).listing.WellFormed (Filled.boundaries none statements) height ∧
      (∀ (scene : Scene) (nested : Nested) (sink : Sink), scene.template.listing = (generate statements).listing →
        ∃ trace, Machine.Orderly scene nested sink height trace) ∧
      ∀ (env : Environment) (levels : Nat) (root : Value), Machine.FindOperands (env.renderAt levels root none) := by
  have written : ∃ tokens, Written source.toList (.statements template.children) tokens := by
    rcases parsed with ⟨name, parsed⟩ | ⟨name, line, column, parsed⟩
    · exact ⟨_, (Template.Accepted.whole parsed).written⟩
    · exact ⟨_, (Template.Accepted.part parsed).written⟩
  obtain ⟨tokens, written⟩ := written
  obtain ⟨generated, closed⟩ := generate_listing (Filled.ofStmts_branched written filled)
  obtain ⟨height, wellFormed⟩ := Listing.wellFormed_ofStatements statements
  rw [generated]
  refine ⟨rfl, closed, fun small index instruction stands waits => ?_, height, wellFormed,
    fun scene nested sink same => ?_, fun env levels root => ?_⟩
  · have inside := (wellFormed.jumps stands waits).2
    omega
  · rw [← same] at wellFormed
    exact Machine.exists_orderly same wellFormed nested sink
  · exact fun name vars session sink failure fails => Environment.renderAt_failure levels fails

/-- A section that is filled in a branch, an operand that may be skipped, and bindings. -/
theorem generate_wellFormed_branches :
    let source := "<" ++ Template.tag "if a and (b or c)" ++ Template.tag "fill 's'" ++ Template.tag "elseif d < 2" ++
      Template.tag "embed 'card' with ['k' => x.y, 'l' => z]" ++ Template.tag "else" ++ Template.tag "endif" ++ ">"
    let body := Template.tag "if not e" ++ "e" ++ Template.tag "endif" ++ Template.tag "f | default: 'g'"
    let session := (({} : Session).captureText "s" body).1
    ∃ page statements, Template.parse source "page" = .ok page ∧
      Filled.ofStmts session maxFillDepth page.children = .ok statements ∧
      (generate statements).blocks = [] ∧ (generate statements).listing.size = 28 ∧
      ∃ height,
        (generate statements).listing.WellFormed [0, 1, 7, 7, 10, 11, 11, 14, 14, 19, 26, 27, 27, 28] height ∧
        ∀ (env : Environment) (vars : Value), ∃ trace,
          Machine.Orderly ⟨env, ⟨"page", source, (generate statements).listing⟩, session, vars, vars⟩
            (env.renderAt maxRenderDepth vars none) (.text "") height trace := by
  intro source body session
  obtain ⟨page, parsed, statements, filled, size, boundaries⟩ : ∃ page, Template.parse source "page" = .ok page ∧
      ∃ statements, Filled.ofStmts session maxFillDepth page.children = .ok statements ∧
        (generate statements).listing.size = 28 ∧
        Filled.boundaries none statements = [0, 1, 7, 7, 10, 11, 11, 14, 14, 19, 26, 27, 27, 28] := by
    decide +kernel
  obtain ⟨-, closed, -, height, wellFormed, runs, -⟩ := generate_wellFormed (.inl ⟨"page", parsed⟩) filled
  rw [boundaries] at wellFormed
  exact ⟨page, statements, parsed, filled, closed, size, height, wellFormed, fun env vars => runs _ _ _ rfl⟩

end Emitter

end TextTemplate
