import TextTemplate.Proofs.Declarations
import TextTemplate.Proofs.Evaluation
import TextTemplate.Proofs.Syntax.Spelling

/-!
Trees without their spans. What a template writes does not depend on where its parts stand in the
source, nor on the code that was generated for it.
-/
namespace TextTemplate

namespace Expr

theorem evaluate_bare (env : Environment) (vars : Value) (e : Expr) :
    e.bare.evaluate env vars = e.evaluate env vars := by
  induction e with
  | var name span => rfl
  | const value span => rfl
  | member of name span ih => rw [bare, evaluate, evaluate, ih]
  | not operand span ih => rw [bare, evaluate, evaluate, ih]
  | filter name operand argument span ih => rw [bare, evaluate, evaluate, ih]
  | binary op left right span ihl ihr =>
    rw [bare]
    cases op <;> rw [evaluate, evaluate, ihl, ihr]

/-- Bindings without the spans of their paths. -/
def bareBindings (bindings : List (String × Expr)) : List (String × Expr) :=
  bindings.map fun (key, path) => (key, path.bare)

theorem evaluateBindings_bare (env : Environment) (vars : Value) (bindings : List (String × Expr)) :
    evaluateBindings env vars (bareBindings bindings) = evaluateBindings env vars bindings := by
  induction bindings with
  | nil => rfl
  | cons binding rest ih =>
    obtain ⟨key, path⟩ := binding
    show evaluateBindings env vars ((key, path.bare) :: bareBindings rest) = _
    rw [evaluateBindings, evaluateBindings, evaluate_bare, ih]

end Expr

namespace Stmt

mutual

/-- A statement without its spans. -/
def bare : Stmt → Stmt
  | .text raw _ => .text raw {}
  | .output value _ => .output value.bare {}
  | .conditional branches otherwise _ => .conditional (bareBranches branches) (bareOtherwise otherwise) {}
  | .each item collection part _ => .each item collection.bare part {}
  | .inclusion name _ => .inclusion name {}
  | .embedding name bindings _ => .embedding name (Expr.bareBindings bindings) {}
  | .fill name _ => .fill name {}
  | .layout name _ => .layout name {}
  | .capture name body _ => .capture name body {}

def bareAll : List Stmt → List Stmt
  | [] => []
  | stmt :: stmts => bare stmt :: bareAll stmts

def bareBranches : List (Expr × List Stmt) → List (Expr × List Stmt)
  | [] => []
  | (condition, body) :: branches => (condition.bare, bareAll body) :: bareBranches branches

def bareOtherwise : Option (List Stmt) → Option (List Stmt)
  | none => none
  | some body => some (bareAll body)

end

theorem bareAll_append (first rest : List Stmt) : bareAll (first ++ rest) = bareAll first ++ bareAll rest := by
  induction first with
  | nil => rfl
  | cons stmt first ih => rw [List.cons_append, bareAll, bareAll, ih, List.cons_append]

mutual

theorem declarations_bare : (stmt : Stmt) → stmt.bare.declarations = stmt.declarations
  | .conditional branches otherwise _ => by
    rw [bare, declarations, declarations, branchDeclarations_bare branches, otherwiseDeclarations_bare otherwise]
  | .text .. | .output .. | .each .. | .inclusion .. | .embedding .. | .fill .. | .layout .. | .capture .. => rfl

theorem allDeclarations_bare : (stmts : List Stmt) → allDeclarations (bareAll stmts) = allDeclarations stmts
  | [] => rfl
  | stmt :: stmts => by
    rw [bareAll, allDeclarations, allDeclarations, declarations_bare stmt, allDeclarations_bare stmts]

theorem branchDeclarations_bare : (branches : List (Expr × List Stmt)) →
    branchDeclarations (bareBranches branches) = branchDeclarations branches
  | [] => rfl
  | (_, body) :: branches => by
    rw [bareBranches, branchDeclarations, branchDeclarations, allDeclarations_bare body,
      branchDeclarations_bare branches]

theorem otherwiseDeclarations_bare : (otherwise : Option (List Stmt)) →
    otherwiseDeclarations (bareOtherwise otherwise) = otherwiseDeclarations otherwise
  | none => rfl
  | some body => by rw [bareOtherwise, otherwiseDeclarations, otherwiseDeclarations, allDeclarations_bare body]

end

section
variable {scene : Scene} {nested : Nested} {fill : FillWriter}

theorem eachItem_template (template : Compiled) (item part : String) (sink : Sink) (items : List Value) :
    Machine.eachItem { scene with template } nested item part sink items =
      Machine.eachItem scene nested item part sink items := by
  induction items generalizing sink with
  | nil => rfl
  | cons v items ih =>
    rw [Machine.eachItem, Machine.eachItem]
    simp only [ih]

mutual

theorem evaluate_bare (template : Compiled) : (stmt : Stmt) → (sink : Sink) →
    evaluate { scene with template } nested fill stmt.bare sink = evaluate scene nested fill stmt sink
  | .output value _, sink => by
    rw [bare, evaluate, evaluate, Expr.evaluate_bare]
  | .conditional branches otherwise _, sink => by
    have behind : (fun sink => evaluateOtherwise { scene with template } nested fill (bareOtherwise otherwise) sink) =
        fun sink => evaluateOtherwise scene nested fill otherwise sink :=
      funext (evaluateOtherwise_bare template otherwise)
    rw [bare, evaluate, evaluate, behind, evaluateBranches_bare template branches]
  | .each item collection part _, sink => by
    rw [bare, evaluate, evaluate, Expr.evaluate_bare]
    simp only [eachItem_template]
  | .embedding name bindings _, sink => by
    rw [bare, evaluate, evaluate, Expr.evaluateBindings_bare]
    rfl
  | .text .., _ | .inclusion .., _ | .fill .., _ | .layout .., _ | .capture .., _ => rfl

theorem evaluateAll_bare (template : Compiled) : (stmts : List Stmt) → (sink : Sink) →
    evaluateAll { scene with template } nested fill (bareAll stmts) sink = evaluateAll scene nested fill stmts sink
  | [], _ => rfl
  | stmt :: stmts, sink => by
    have rest : (fun sink => evaluateAll { scene with template } nested fill (bareAll stmts) sink) =
        fun sink => evaluateAll scene nested fill stmts sink :=
      funext (evaluateAll_bare template stmts)
    rw [bareAll, evaluateAll, evaluateAll, evaluate_bare template stmt, rest]

theorem evaluateBranches_bare (template : Compiled) : (branches : List (Expr × List Stmt)) →
    (otherwise : Sink → Outcome) → (sink : Sink) →
    evaluateBranches { scene with template } nested fill otherwise (bareBranches branches) sink =
      evaluateBranches scene nested fill otherwise branches sink
  | [], _, _ => rfl
  | (condition, body) :: branches, otherwise, sink => by
    rw [bareBranches, evaluateBranches, evaluateBranches, Expr.evaluate_bare, evaluateAll_bare template body,
      evaluateBranches_bare template branches]

theorem evaluateOtherwise_bare (template : Compiled) : (otherwise : Option (List Stmt)) → (sink : Sink) →
    evaluateOtherwise { scene with template } nested fill (bareOtherwise otherwise) sink =
      evaluateOtherwise scene nested fill otherwise sink
  | none, _ => rfl
  | some body, sink => by
    rw [bareOtherwise, evaluateOtherwise, evaluateOtherwise, evaluateAll_bare template body]

end

/-- Statements that only differ in their spans write the same, whatever code they are in. -/
theorem evaluateAll_congr {stmts others : List Stmt} (same : bareAll stmts = bareAll others) (template : Compiled)
    (sink : Sink) :
    evaluateAll { scene with template } nested fill stmts sink = evaluateAll scene nested fill others sink := by
  let other : Scene := { scene with template }
  have bare : evaluateAll other nested fill (bareAll stmts) sink = evaluateAll other nested fill stmts sink :=
    @evaluateAll_bare other nested fill template stmts sink
  rw [← evaluateAll_bare template others, ← same]
  exact bare.symm

end

end Stmt

end TextTemplate
