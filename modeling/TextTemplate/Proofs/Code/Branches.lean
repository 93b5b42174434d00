import TextTemplate.Proofs.Results
import TextTemplate.Proofs.Syntax.Sections

/-!
Conditionals have branches. The grammar has no conditional without one, and statements that are filled
from sections keep the branches that they are written with.
-/
namespace TextTemplate

namespace Filled

/-- Every conditional of a statement has a branch. -/
inductive Branched : Filled → Prop where
  | text (raw : String) (line : Nat) : Branched (.text raw line)
  | output (value : Expr) (line : Nat) : Branched (.output value line)
  | conditional {branches : List (Expr × List Filled)} {otherwise : Option (List Filled)} (line : Nat) :
    branches ≠ [] → (∀ branch ∈ branches, ∀ statement ∈ branch.2, Branched statement) →
    (∀ body ∈ otherwise, ∀ statement ∈ body, Branched statement) →
    Branched (.conditional branches otherwise line)
  | each (item : String) (collection : Expr) (part : String) (line : Nat) :
    Branched (.each item collection part line)
  | inclusion (name : String) (line : Nat) : Branched (.inclusion name line)
  | embedding (name : String) (bindings : List (String × Expr)) (line : Nat) :
    Branched (.embedding name bindings line)
  | unfilled (line : Nat) : Branched (.unfilled line)
  | filled (origin : String) {body : List Filled} (line : Nat) :
    (∀ statement ∈ body, Branched statement) → Branched (.filled origin body line)

end Filled

/-- Whatever a part of a template is filled with, its conditionals have branches. -/
def Phrase.FillsBranched (session : Session) (filling : Filled.Filling) : Phrase → Prop
  | .statements all => ∀ filled,
    Filled.ofAll session filling all = .ok filled → ∀ statement ∈ filled, statement.Branched
  | .tag stmt => ∀ filled,
    Filled.ofStmt session filling stmt = .ok filled → ∀ statement ∈ filled, statement.Branched
  | .branches all otherwise => ∀ filled other,
    Filled.ofBranches session filling all = .ok filled → Filled.ofOtherwise session filling otherwise = .ok other →
    (∀ branch ∈ filled, ∀ statement ∈ branch.2, statement.Branched) ∧
      ∀ body ∈ other, ∀ statement ∈ body, statement.Branched

namespace Filled

variable {session : Session} {filling : Filling}

theorem ofAll_cons_eq_ok {stmt : Stmt} {stmts : List Stmt} {filled : List Filled}
    (resolved : ofAll session filling (stmt :: stmts) = .ok filled) :
    ∃ first rest, ofStmt session filling stmt = .ok first ∧ ofAll session filling stmts = .ok rest ∧
      filled = first ++ rest := by
  obtain ⟨first, one, resolved⟩ := bind_eq_ok.mp resolved
  obtain ⟨rest, more, same⟩ := bind_eq_ok.mp resolved
  exact ⟨first, rest, one, more, (Except.ok.inj same).symm⟩

theorem ofBranches_cons_eq_ok {condition : Expr} {body : List Stmt} {branches : List (Expr × List Stmt)}
    {filled : List (Expr × List Filled)}
    (resolved : ofBranches session filling ((condition, body) :: branches) = .ok filled) :
    ∃ inner rest, ofAll session filling body = .ok inner ∧ ofBranches session filling branches = .ok rest ∧
      filled = (condition, inner) :: rest := by
  obtain ⟨inner, one, resolved⟩ := bind_eq_ok.mp resolved
  obtain ⟨rest, more, same⟩ := bind_eq_ok.mp resolved
  exact ⟨inner, rest, one, more, (Except.ok.inj same).symm⟩

end Filled

section
variable {source : List Char} {phrase : Phrase} {tokens : List Lexeme} {session : Session} {filling : Filled.Filling}

theorem Written.fillsBranched (written : Written source phrase tokens)
    (bodies : ∀ name captured body, filling name captured = .ok body → ∀ statement ∈ body, statement.Branched) :
    phrase.FillsBranched session filling := by
  induction written with
  | done =>
    intro filled resolved
    obtain rfl := Except.ok.inj resolved
    simp
  | text raw span _ ih =>
    intro filled resolved
    obtain ⟨first, rest, one, more, rfl⟩ := Filled.ofAll_cons_eq_ok resolved
    obtain rfl := Except.ok.inj one
    exact List.forall_mem_append.mpr ⟨by simp [Filled.Branched.text], ih rest more⟩
  | tag _ _ _ first second =>
    intro filled resolved
    obtain ⟨one, rest, resolvedOne, resolvedRest, rfl⟩ := Filled.ofAll_cons_eq_ok resolved
    exact List.forall_mem_append.mpr ⟨first one resolvedOne, second rest resolvedRest⟩
  | output =>
    intro filled resolved
    obtain rfl := Except.ok.inj resolved
    simp [Filled.Branched.output]
  | layout =>
    intro filled resolved
    obtain rfl := Except.ok.inj resolved
    simp
  | capture =>
    intro filled resolved
    obtain rfl := Except.ok.inj resolved
    simp
  | fill =>
    intro filled resolved
    rw [Filled.ofStmt] at resolved
    split at resolved
    · obtain rfl := Except.ok.inj resolved
      simp [Filled.Branched.unfilled]
    · obtain ⟨body, filledBody, same⟩ := bind_eq_ok.mp resolved
      obtain rfl := Except.ok.inj same
      exact List.forall_mem_singleton.mpr (.filled _ _ (bodies _ _ body filledBody))
  | conditional span keyword ending _ _ ih =>
    intro filled resolved
    rw [Filled.ofStmt] at resolved
    obtain ⟨branches, resolvedBranches, resolved⟩ := bind_eq_ok.mp resolved
    obtain ⟨other, resolvedOther, same⟩ := bind_eq_ok.mp resolved
    obtain rfl := Except.ok.inj same
    obtain ⟨branched, branchedOther⟩ := ih branches other resolvedBranches resolvedOther
    obtain ⟨inner, rest, -, -, rfl⟩ := Filled.ofBranches_cons_eq_ok resolvedBranches
    exact List.forall_mem_singleton.mpr (.conditional _ (List.cons_ne_nil _ _) branched branchedOther)
  | each =>
    intro filled resolved
    obtain rfl := Except.ok.inj resolved
    simp [Filled.Branched.each]
  | inclusion =>
    intro filled resolved
    obtain rfl := Except.ok.inj resolved
    simp [Filled.Branched.inclusion]
  | embedding | embeddingWith =>
    intro filled resolved
    obtain rfl := Except.ok.inj resolved
    simp [Filled.Branched.embedding]
  | lastBranch ending opening keyword _ ih =>
    intro filled other resolved resolvedOther
    obtain ⟨inner, rest, one, more, rfl⟩ := Filled.ofBranches_cons_eq_ok resolved
    obtain rfl := Except.ok.inj more
    obtain rfl := Except.ok.inj resolvedOther
    exact ⟨List.forall_mem_singleton.mpr (ih inner one), by simp⟩
  | otherwise _ _ _ _ _ _ _ _ first second =>
    intro filled other resolved resolvedOther
    obtain ⟨inner, rest, one, more, rfl⟩ := Filled.ofBranches_cons_eq_ok resolved
    obtain rfl := Except.ok.inj more
    obtain ⟨last, resolvedLast, same⟩ := bind_eq_ok.mp resolvedOther
    obtain rfl := Except.ok.inj same
    refine ⟨List.forall_mem_singleton.mpr (first inner one), fun body found => ?_⟩
    obtain rfl := Option.some.inj found
    exact second _ resolvedLast
  | anotherBranch _ _ _ _ _ _ first more =>
    intro filled other resolved resolvedOther
    obtain ⟨inner, rest, one, others, rfl⟩ := Filled.ofBranches_cons_eq_ok resolved
    obtain ⟨branched, branchedOther⟩ := more rest other others resolvedOther
    exact ⟨List.forall_mem_cons.mpr ⟨first inner one, branched⟩, branchedOther⟩

/-- The conditionals of filled statements have branches, those from sections as well. -/
theorem Filled.ofStmts_branched {depth : Nat} {stmts : List Stmt} {statements : List Filled}
    (written : Written source (.statements stmts) tokens) (filled : ofStmts session depth stmts = .ok statements) :
    ∀ statement ∈ statements, statement.Branched := by
  induction depth generalizing source tokens stmts statements with
  | zero =>
    unfold ofStmts at filled
    exact written.fillsBranched (fun _ _ _ endless => by cases endless) statements filled
  | succ depth ih =>
    unfold ofStmts at filled
    refine written.fillsBranched (fun name captured body resolved => ?_) statements filled
    obtain ⟨template, parsed, resolved⟩ := bind_eq_ok.mp resolved
    exact ih (Template.Accepted.part parsed).written resolved

end

end TextTemplate
