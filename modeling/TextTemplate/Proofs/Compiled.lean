import TextTemplate.Compiled
import TextTemplate.Proofs.Results

/-!
Compiling is reading, declaring and filling, and whatever goes wrong there is an error of the syntax.
-/
namespace TextTemplate

/-- The problems of sources and of the sections that fill them. -/
def Problem.isSyntactic : Problem → Bool
  | .ofSyntax _ | .endlessFill _ => true
  | _ => false

theorem Problem.kind_of_isSyntactic {problem : Problem} (syntactic : problem.isSyntactic = true) :
    problem.kind = .syntaxError := by
  cases problem with
  | ofSyntax | endlessFill => rfl
  | _ => cases syntactic

theorem Fault.problem_placedAt (fault : Fault) (place : Place) : (fault.placedAt place).problem = fault.problem := by
  unfold placedAt
  split <;> rfl

namespace Filled

theorem parsed_error {captured : CapturedSection} {fault : Fault} (fails : parsed captured = .error fault) :
    fault.problem.isSyntactic = true := by
  unfold parsed Template.parsePart at fails
  split at fails
  · cases fails
  · obtain rfl := Except.error.inj fails
    rfl

mutual

theorem ofStmt_error {session : Session} {filling : Filling} {P : Fault → Prop}
    (fails : ∀ name captured fault, session.section? name = some captured → filling name captured = .error fault →
      P fault) :
    (stmt : Stmt) → {fault : Fault} → ofStmt session filling stmt = .error fault → P fault
  | .conditional branches otherwise _, fault, failed => by
    rcases bind_eq_error.mp failed with first | ⟨_, -, rest⟩
    · exact ofBranches_error fails branches first
    rcases bind_eq_error.mp rest with second | ⟨_, -, last⟩
    · exact ofOtherwise_error fails otherwise second
    · cases last
  | .fill name _, fault, failed => by
    rw [ofStmt] at failed
    split at failed
    · cases failed
    · rename_i captured found
      rcases bind_eq_error.mp failed with first | ⟨_, -, last⟩
      · exact fails name captured fault found first
      · cases last
  | .text .., _, failed | .output .., _, failed | .each .., _, failed | .inclusion .., _, failed
  | .embedding .., _, failed | .layout .., _, failed | .capture .., _, failed => by cases failed

theorem ofAll_error {session : Session} {filling : Filling} {P : Fault → Prop}
    (fails : ∀ name captured fault, session.section? name = some captured → filling name captured = .error fault →
      P fault) :
    (stmts : List Stmt) → {fault : Fault} → ofAll session filling stmts = .error fault → P fault
  | [], _, failed => by cases failed
  | stmt :: stmts, fault, failed => by
    rcases bind_eq_error.mp failed with first | ⟨_, -, rest⟩
    · exact ofStmt_error fails stmt first
    rcases bind_eq_error.mp rest with second | ⟨_, -, last⟩
    · exact ofAll_error fails stmts second
    · cases last

theorem ofBranches_error {session : Session} {filling : Filling} {P : Fault → Prop}
    (fails : ∀ name captured fault, session.section? name = some captured → filling name captured = .error fault →
      P fault) :
    (branches : List (Expr × List Stmt)) → {fault : Fault} → ofBranches session filling branches = .error fault →
      P fault
  | [], _, failed => by cases failed
  | (_, body) :: branches, fault, failed => by
    rcases bind_eq_error.mp failed with first | ⟨_, -, rest⟩
    · exact ofAll_error fails body first
    rcases bind_eq_error.mp rest with second | ⟨_, -, last⟩
    · exact ofBranches_error fails branches second
    · cases last

theorem ofOtherwise_error {session : Session} {filling : Filling} {P : Fault → Prop}
    (fails : ∀ name captured fault, session.section? name = some captured → filling name captured = .error fault →
      P fault) :
    (otherwise : Option (List Stmt)) → {fault : Fault} → ofOtherwise session filling otherwise = .error fault →
      P fault
  | none, _, failed => by cases failed
  | some body, fault, failed => by
    rcases bind_eq_error.mp failed with first | ⟨_, -, last⟩
    · exact ofAll_error fails body first
    · cases last

end

/-- Statements are not filled for a section that cannot be read, or that fills itself. -/
theorem ofStmts_error_of {session : Session} {P : Fault → Prop}
    (unread : ∀ name captured fault, session.section? name = some captured → parsed captured = .error fault →
      P fault)
    (endless : ∀ name, P { problem := .endlessFill name }) {depth : Nat} {stmts : List Stmt} {fault : Fault}
    (failed : ofStmts session depth stmts = .error fault) : P fault := by
  induction depth generalizing stmts fault with
  | zero =>
    unfold ofStmts at failed
    refine ofAll_error (fun name captured fault _ fails => ?_) stmts failed
    obtain rfl := Except.error.inj fails
    exact endless name
  | succ depth ih =>
    unfold ofStmts at failed
    refine ofAll_error (fun name captured fault found fails => ?_) stmts failed
    rcases bind_eq_error.mp fails with fails | ⟨template, -, unfilled⟩
    · exact unread name captured fault found fails
    · exact ih unfilled

theorem ofStmts_error {session : Session} {depth : Nat} {stmts : List Stmt} {fault : Fault}
    (failed : ofStmts session depth stmts = .error fault) : fault.problem.isSyntactic = true :=
  ofStmts_error_of (fun _ _ _ _ => parsed_error) (fun _ => rfl) failed

end Filled

namespace Compiled

theorem compile_eq_ok {name source : String} {session : Session} {result : Compiled × Session} :
    compile name source session = .ok result ↔
      ∃ template statements, Template.parse source name = .ok template ∧
        Filled.ofStmts (Stmt.declareAll name session template.children) maxFillDepth template.children =
          .ok statements ∧
        result = (⟨name, source, .ofStatements statements⟩, Stmt.declareAll name session template.children) := by
  constructor
  · intro compiled
    obtain ⟨template, parsed, rest⟩ := bind_eq_ok.mp compiled
    dsimp only at rest
    split at rest
    · cases rest
    · rename_i statements filled
      exact ⟨template, statements, parsed, filled, (Except.ok.inj rest).symm⟩
  · rintro ⟨template, statements, parsed, filled, rfl⟩
    refine bind_eq_ok.mpr ⟨template, parsed, ?_⟩
    simp only [filled]

theorem compile_error {name source : String} {session : Session} {fault : Fault}
    (fails : compile name source session = .error fault) : fault.problem.isSyntactic = true := by
  rcases bind_eq_error.mp fails with unread | ⟨template, -, rest⟩
  · unfold Template.parse at unread
    split at unread
    · cases unread
    · obtain rfl := Except.error.inj unread
      rfl
  · dsimp only at rest
    split at rest
    · rename_i cause unfilled
      obtain rfl := Except.error.inj rest
      rw [Fault.problem_placedAt]
      exact Filled.ofStmts_error unfilled
    · cases rest

end Compiled

end TextTemplate
