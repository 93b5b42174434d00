import TextTemplate.Proofs.Compiled

/-!
What the fills of statements ask a session for. Filling statements depends on the session through the
sections of these names alone; where none of them was captured, it cannot fail.
-/
namespace TextTemplate

namespace Stmt

mutual

/-- The names of the sections that a statement fills in. -/
def fills : Stmt → List String
  | .conditional branches otherwise _ => branchFills branches ++ otherwiseFills otherwise
  | .fill name _ => [name]
  | .text .. | .output .. | .each .. | .inclusion .. | .embedding .. | .layout .. | .capture .. => []

def allFills : List Stmt → List String
  | [] => []
  | stmt :: stmts => fills stmt ++ allFills stmts

def branchFills : List (Expr × List Stmt) → List String
  | [] => []
  | (_, body) :: branches => allFills body ++ branchFills branches

def otherwiseFills : Option (List Stmt) → List String
  | none => []
  | some body => allFills body

end

end Stmt

namespace Filled

/-- The names that statements ask a session for when they are filled, on their own and in the sections
that stand for their fills. -/
def asked (session : Session) (depth : Nat) (stmts : List Stmt) : List String :=
  Stmt.allFills stmts ++
    match depth with
    | 0 => []
    | depth + 1 => (Stmt.allFills stmts).flatMap fun name =>
      match session.section? name with
      | none => []
      | some captured =>
        match parsed captured with
        | .error _ => []
        | .ok template => asked session depth template.children

theorem mem_asked_of_mem_allFills {session : Session} {depth : Nat} {stmts : List Stmt} {name : String}
    (fill : name ∈ Stmt.allFills stmts) : name ∈ asked session depth stmts := by
  unfold asked
  exact List.mem_append_left _ fill

theorem mem_asked_inside {session : Session} {depth : Nat} {stmts : List Stmt} {name inner : String}
    {captured : CapturedSection} {template : Template} (fill : name ∈ Stmt.allFills stmts)
    (found : session.section? name = some captured) (reads : parsed captured = .ok template)
    (asks : inner ∈ asked session depth template.children) : inner ∈ asked session (depth + 1) stmts := by
  rw [asked]
  refine List.mem_append_right _ (List.mem_flatMap.mpr ⟨name, fill, ?_⟩)
  simpa only [found, reads] using asks

/-- Two ways to fill in the section of a name that come to the same. -/
structure Agree (session session' : Session) (filling filling' : Filling) (name : String) : Prop where
  captured : session.section? name = session'.section? name
  body : ∀ captured, session.section? name = some captured → filling name captured = filling' name captured

section
variable {session session' : Session} {filling filling' : Filling}

mutual

theorem ofStmt_congr : (stmt : Stmt) → (∀ name ∈ stmt.fills, Agree session session' filling filling' name) →
    ofStmt session filling stmt = ofStmt session' filling' stmt
  | .conditional branches otherwise span, agree => by
    have first := ofBranches_congr branches fun name found => agree name (List.mem_append_left _ found)
    have second := ofOtherwise_congr otherwise fun name found => agree name (List.mem_append_right _ found)
    rw [ofStmt, ofStmt, first, second]
  | .fill name span, agree => by
    obtain ⟨same, body⟩ := agree name List.mem_cons_self
    rw [ofStmt, ofStmt, ← same]
    cases found : session.section? name with
    | none => rfl
    | some captured =>
      dsimp only
      rw [body captured found]
  | .text .., _ | .output .., _ | .each .., _ | .inclusion .., _ | .embedding .., _ | .layout .., _
  | .capture .., _ => rfl

theorem ofAll_congr : (stmts : List Stmt) →
    (∀ name ∈ Stmt.allFills stmts, Agree session session' filling filling' name) →
    ofAll session filling stmts = ofAll session' filling' stmts
  | [], _ => rfl
  | stmt :: stmts, agree => by
    have first := ofStmt_congr stmt fun name found => agree name (List.mem_append_left _ found)
    have rest := ofAll_congr stmts fun name found => agree name (List.mem_append_right _ found)
    rw [ofAll, ofAll, first, rest]

theorem ofBranches_congr : (branches : List (Expr × List Stmt)) →
    (∀ name ∈ Stmt.branchFills branches, Agree session session' filling filling' name) →
    ofBranches session filling branches = ofBranches session' filling' branches
  | [], _ => rfl
  | (condition, body) :: branches, agree => by
    have first := ofAll_congr body fun name found => agree name (List.mem_append_left _ found)
    have rest := ofBranches_congr branches fun name found => agree name (List.mem_append_right _ found)
    rw [ofBranches, ofBranches, first, rest]

theorem ofOtherwise_congr : (otherwise : Option (List Stmt)) →
    (∀ name ∈ Stmt.otherwiseFills otherwise, Agree session session' filling filling' name) →
    ofOtherwise session filling otherwise = ofOtherwise session' filling' otherwise
  | none, _ => rfl
  | some body, agree => by
    rw [ofOtherwise, ofOtherwise, ofAll_congr body agree]

end

/-- Filling statements depends on the sections that they ask for. -/
theorem ofStmts_congr {depth : Nat} {stmts : List Stmt}
    (same : ∀ name ∈ asked session depth stmts, session.section? name = session'.section? name) :
    ofStmts session depth stmts = ofStmts session' depth stmts := by
  induction depth generalizing stmts with
  | zero =>
    rw [ofStmts, ofStmts]
    exact ofAll_congr stmts fun name found => ⟨same name (mem_asked_of_mem_allFills found), fun _ _ => rfl⟩
  | succ depth ih =>
    rw [ofStmts, ofStmts]
    refine ofAll_congr stmts fun name fill => ⟨same name (mem_asked_of_mem_allFills fill), fun captured found => ?_⟩
    cases reads : parsed captured with
    | error fault => rfl
    | ok template => exact ih fun inner asks => same inner (mem_asked_inside fill found reads asks)

/-- Where nothing was captured that statements ask for, their fills stand for nothing. -/
theorem ofStmts_of_missing {stmts : List Stmt} (missing : ∀ name ∈ Stmt.allFills stmts, session.section? name = none)
    (depth : Nat) : ∃ statements, ofStmts session depth stmts = .ok statements := by
  let nothing : Filling := fun _ _ => .ok []
  have same (filling : Filling) : ofAll session filling stmts = ofAll session nothing stmts := by
    refine ofAll_congr stmts fun name fill => ⟨rfl, fun captured found => ?_⟩
    rw [missing name fill] at found
    cases found
  have succeeds : ∃ statements, ofAll session nothing stmts = .ok statements := by
    cases filled : ofAll session nothing stmts with
    | ok statements => exact ⟨statements, rfl⟩
    | error fault => exact (ofAll_error (P := fun _ => False) (fun _ _ _ _ fails => by cases fails) stmts filled).elim
  cases depth <;> rw [ofStmts, same] <;> exact succeeds

end

end Filled

end TextTemplate
