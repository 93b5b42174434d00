import TextTemplate.Proofs.Evaluation
import TextTemplate.Proofs.Filling

/-!
How deep fills lead. A chain of fills goes from a template through the bodies of sections, each fill
written in the body before it. Filling succeeds if no chain is longer than the bound and every section
on a chain can be read, and fails otherwise; how many fills stand side by side does not matter. Code is
generated from what is filled, which cannot fail any more.
-/
namespace TextTemplate

namespace Session

/-- The section of a name was captured, and its body is the template. -/
def Body (session : Session) (name : String) (template : Template) : Prop :=
  ∃ captured, session.section? name = some captured ∧ Filled.parsed captured = .ok template

/-- Fills of captured sections that lead from statements to the section of a name, each written in the
body of the one before it, at any place inside its branches. The body of the last one is not read. -/
inductive FillChain (session : Session) : List Stmt → Nat → String → Prop
  | last {stmts : List Stmt} {name : String} {captured : CapturedSection} (fill : name ∈ Stmt.allFills stmts)
    (found : session.section? name = some captured) : FillChain session stmts 1 name
  | step {stmts : List Stmt} {name inner : String} {template : Template} {n : Nat}
    (fill : name ∈ Stmt.allFills stmts) (body : session.Body name template)
    (rest : FillChain session template.children n inner) : FillChain session stmts (n + 1) inner

namespace FillChain

variable {session : Session} {stmts : List Stmt} {name inner : String} {template : Template} {m n : Nat}

theorem pos (chain : FillChain session stmts n name) : 0 < n := by
  cases chain <;> omega

/-- The first fill of a chain is one of the statements' own. -/
theorem head (chain : FillChain session stmts n name) :
    ∃ first captured, first ∈ Stmt.allFills stmts ∧ session.section? first = some captured := by
  cases chain with
  | last fill found => exact ⟨_, _, fill, found⟩
  | step fill body _ =>
    obtain ⟨captured, found, -⟩ := body
    exact ⟨_, captured, fill, found⟩

theorem append (chain : FillChain session stmts m name) (body : session.Body name template)
    (rest : FillChain session template.children n inner) : FillChain session stmts (n + m) inner := by
  induction chain with
  | last fill => exact .step fill body rest
  | step fill outer _ ih => exact .step fill outer (ih body)

/-- A section that leads back to itself is reached by chains of any length. -/
theorem endless (chain : FillChain session stmts m name) (body : session.Body name template)
    (loop : FillChain session template.children n name) (bound : Nat) :
    ∃ length, bound < length ∧ FillChain session stmts length name := by
  induction bound with
  | zero => exact ⟨m, chain.pos, chain⟩
  | succ bound ih =>
    obtain ⟨length, longer, chain⟩ := ih
    have := loop.pos
    exact ⟨n + length, by omega, chain.append body loop⟩

end FillChain

end Session

namespace Filled

/-- Whether the section of a name, if there is one, can be filled in. -/
def Fillable (session : Session) (filling : Filling) (name : String) : Prop :=
  ∀ captured, session.section? name = some captured → ∃ body, filling name captured = .ok body

section
variable {session : Session} {filling : Filling}

/-- Of two results the second is asked for behind the first, and both are there in the end. -/
theorem exists_both_ok {α β γ : Type} {x : Except Fault α} {y : Except Fault β} {f : α → β → γ} :
    (∃ c, (do let a ← x; let b ← y; .ok (f a b)) = Except.ok c) ↔ (∃ a, x = .ok a) ∧ ∃ b, y = .ok b := by
  cases x <;> cases y <;> simp [bind, Except.bind]

mutual

theorem ofStmt_ok : (stmt : Stmt) →
    ((∃ filled, ofStmt session filling stmt = .ok filled) ↔ ∀ name ∈ stmt.fills, Fillable session filling name)
  | .conditional branches otherwise _ => by
    rw [ofStmt, Stmt.fills, exists_both_ok, List.forall_mem_append, ofBranches_ok branches, ofOtherwise_ok otherwise]
  | .fill name _ => by
    rw [ofStmt, Stmt.fills, List.forall_mem_singleton]
    cases found : session.section? name with
    | none => exact iff_of_true ⟨_, rfl⟩ (fun captured found' => nomatch found.symm.trans found')
    | some captured =>
      constructor
      · rintro ⟨_, filled⟩ captured' found'
        obtain rfl := Option.some.inj (found.symm.trans found')
        obtain ⟨body, filled, -⟩ := bind_eq_ok.mp filled
        exact ⟨body, filled⟩
      · intro fillable
        obtain ⟨body, filled⟩ := fillable captured found
        exact ⟨_, bind_eq_ok.mpr ⟨body, filled, rfl⟩⟩
  | .text .. | .output .. | .each .. | .inclusion .. | .embedding .. | .layout .. | .capture .. =>
    iff_of_true ⟨_, rfl⟩ nofun

theorem ofAll_ok : (stmts : List Stmt) →
    ((∃ filled, ofAll session filling stmts = .ok filled) ↔
      ∀ name ∈ Stmt.allFills stmts, Fillable session filling name)
  | [] => iff_of_true ⟨_, rfl⟩ nofun
  | stmt :: stmts => by
    rw [ofAll, Stmt.allFills, exists_both_ok, List.forall_mem_append, ofStmt_ok stmt, ofAll_ok stmts]

theorem ofBranches_ok : (branches : List (Expr × List Stmt)) →
    ((∃ filled, ofBranches session filling branches = .ok filled) ↔
      ∀ name ∈ Stmt.branchFills branches, Fillable session filling name)
  | [] => iff_of_true ⟨_, rfl⟩ nofun
  | (condition, body) :: branches => by
    rw [ofBranches, Stmt.branchFills, exists_both_ok, List.forall_mem_append, ofAll_ok body, ofBranches_ok branches]

theorem ofOtherwise_ok : (otherwise : Option (List Stmt)) →
    ((∃ filled, ofOtherwise session filling otherwise = .ok filled) ↔
      ∀ name ∈ Stmt.otherwiseFills otherwise, Fillable session filling name)
  | none => iff_of_true ⟨_, rfl⟩ nofun
  | some body => by
    rw [ofOtherwise, Stmt.otherwiseFills, ← ofAll_ok body]
    simp only [bind_eq_ok]
    constructor
    · rintro ⟨_, filled, first, -⟩
      exact ⟨filled, first⟩
    · rintro ⟨filled, first⟩
      exact ⟨_, filled, first, rfl⟩

end

/-- Filling succeeds if no chain of fills goes deeper than the bound and every section on one is read. -/
theorem ofStmts_ok_iff {depth : Nat} {stmts : List Stmt} :
    (∃ statements, ofStmts session depth stmts = .ok statements) ↔
      ∀ n name, session.FillChain stmts n name → n ≤ depth ∧ ∃ template, session.Body name template := by
  induction depth generalizing stmts with
  | zero =>
    rw [ofStmts, ofAll_ok]
    constructor
    · intro fillable n name chain
      obtain ⟨first, captured, fill, found⟩ := chain.head
      obtain ⟨_, ⟨⟩⟩ := fillable first fill captured found
    · intro short name fill captured found
      exact absurd (short 1 name (.last fill found)).1 (by decide)
  | succ depth ih =>
    rw [ofStmts, ofAll_ok]
    constructor
    · intro fillable n name chain
      cases chain with
      | last fill found =>
        obtain ⟨_, filled⟩ := fillable name fill _ found
        obtain ⟨template, reads, -⟩ := bind_eq_ok.mp filled
        exact ⟨by omega, template, _, found, reads⟩
      | step fill body rest =>
        obtain ⟨captured, found, reads⟩ := body
        obtain ⟨statements, filled⟩ := fillable _ fill captured found
        obtain ⟨template, reads', filled⟩ := bind_eq_ok.mp filled
        obtain rfl := Except.ok.inj (reads.symm.trans reads')
        obtain ⟨short, read⟩ := ih.mp ⟨statements, filled⟩ _ _ rest
        exact ⟨by omega, read⟩
    · intro short name fill captured found
      obtain ⟨-, template, captured', found', reads⟩ := short 1 name (.last fill found)
      obtain rfl := Option.some.inj (found.symm.trans found')
      have inner (n : Nat) (name' : String) (chain : session.FillChain template.children n name') :
          n ≤ depth ∧ ∃ template, session.Body name' template := by
        obtain ⟨le, read⟩ := short (n + 1) name' (.step fill ⟨captured, found, reads⟩ chain)
        exact ⟨by omega, read⟩
      obtain ⟨statements, filled⟩ := ih.mpr inner
      exact ⟨statements, bind_eq_ok.mpr ⟨template, reads, filled⟩⟩

end

/-- Statements that cannot be filled fail with an error of the syntax. -/
theorem ofStmts_ok_or_error (session : Session) (depth : Nat) (stmts : List Stmt) :
    (∃ statements, ofStmts session depth stmts = .ok statements) ∨
      ∃ fault, ofStmts session depth stmts = .error fault ∧ fault.problem.kind = .syntaxError := by
  cases filled : ofStmts session depth stmts with
  | ok statements => exact .inl ⟨statements, rfl⟩
  | error fault =>
    have syntactic := ofStmts_error filled
    refine .inr ⟨fault, rfl, ?_⟩
    cases problem : fault.problem <;> rw [problem] at syntactic <;> first | rfl | cases syntactic

theorem ofStmts_error_of_deep {session : Session} {depth n : Nat} {stmts : List Stmt} {name : String}
    (chain : session.FillChain stmts n name) (deep : depth < n) :
    ∃ fault, ofStmts session depth stmts = .error fault ∧ fault.problem.kind = .syntaxError := by
  refine (ofStmts_ok_or_error session depth stmts).resolve_left fun filled => ?_
  have short := (ofStmts_ok_iff.mp filled n name chain).1
  omega

/-- For every session and every list of statements, filling ends with statements or an error of the
syntax. It fails where more than 32 fills follow one another, so also where a section leads to itself,
and succeeds where no more do and every section that they lead to is read. -/
theorem ofStmts_fillChains (session : Session) (stmts : List Stmt) :
    ((∃ statements, ofStmts session maxFillDepth stmts = .ok statements) ∨
        ∃ fault, ofStmts session maxFillDepth stmts = .error fault ∧ fault.problem.kind = .syntaxError) ∧
      (∀ n name, session.FillChain stmts n name → 32 < n →
        ∃ fault, ofStmts session maxFillDepth stmts = .error fault ∧ fault.problem.kind = .syntaxError) ∧
      (∀ m n name template, session.FillChain stmts m name → session.Body name template →
        session.FillChain template.children n name →
        ∃ fault, ofStmts session maxFillDepth stmts = .error fault ∧ fault.problem.kind = .syntaxError) ∧
      ((∀ n name, session.FillChain stmts n name → n ≤ 32 ∧ ∃ template, session.Body name template) ↔
        ∃ statements, ofStmts session maxFillDepth stmts = .ok statements) := by
  refine ⟨ofStmts_ok_or_error .., fun n name chain deep => ofStmts_error_of_deep chain deep,
    fun m n name template chain body loop => ?_, ofStmts_ok_iff.symm⟩
  obtain ⟨length, deep, chain⟩ := chain.endless body loop maxFillDepth
  exact ofStmts_error_of_deep chain deep

/-- A section whose body fills the section itself. -/
theorem ofStmts_fillChains_loop :
    (({} : Session).captureText "a" (Template.tag "fill 'a'")).1.FillChain [.fill "a" default] 1 "a" ∧
      ∃ fault, ofStmts (({} : Session).captureText "a" (Template.tag "fill 'a'")).1 maxFillDepth [.fill "a" default] =
        .error fault ∧ fault.problem.kind = .syntaxError := by
  have found : (({} : Session).captureText "a" (Template.tag "fill 'a'")).1.section? "a" =
      some ⟨"<session>", ⟨Template.tag "fill 'a'", 1, 0⟩⟩ := by decide +kernel
  have reads : parsed ⟨"<session>", ⟨Template.tag "fill 'a'", 1, 0⟩⟩ = .ok _ :=
    eq_ok_getD ⟨[], default⟩ (by decide +kernel)
  have chain : (({} : Session).captureText "a" (Template.tag "fill 'a'")).1.FillChain [.fill "a" default] 1 "a" :=
    .last (by decide) found
  exact ⟨chain, (ofStmts_fillChains _ _).2.2.1 1 1 "a" _ chain ⟨_, found, reads⟩ (.last (by decide +kernel) found)⟩

end Filled

end TextTemplate
