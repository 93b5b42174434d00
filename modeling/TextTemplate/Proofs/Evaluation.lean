import TextTemplate.Proofs.Fields
import TextTemplate.Render.Machine

/-!
Direct evaluation of templates, with neither code nor stack. Expressions have values, statements
write one after the other, and the statements of a section stand in the place of its fill.
-/
namespace TextTemplate

namespace Value

/-- The answer of a comparison that asks for the order of its operands. -/
def tested (test : Ordering → Bool) (a b : Value) : Except Problem Value :=
  (Machine.ordering a b).map fun order => .bool (Machine.holds test order)

end Value

namespace Expr

/-- The value of an expression. `and` and `or` look at their right operand only if the left one does
not decide, and give the operand that decides. -/
def evaluate (env : Environment) (vars : Value) : Expr → Except Problem Value
  | .var name _ => .ok (vars.member name)
  | .const value _ => .ok value
  | .member of name _ => do
    let v ← of.evaluate env vars
    .ok (v.member name)
  | .not operand _ => do
    let v ← operand.evaluate env vars
    .ok (.bool (!v.isTrue))
  | .binary .and left right _ => do
    let v ← left.evaluate env vars
    if v.isTrue then right.evaluate env vars else .ok v
  | .binary .or left right _ => do
    let v ← left.evaluate env vars
    if v.isTrue then .ok v else right.evaluate env vars
  | .binary .eq left right _ => do
    let a ← left.evaluate env vars
    let b ← right.evaluate env vars
    .ok (.bool (a.same b))
  | .binary .ne left right _ => do
    let a ← left.evaluate env vars
    let b ← right.evaluate env vars
    .ok (.bool (!a.same b))
  | .binary .lt left right _ => do
    let a ← left.evaluate env vars
    let b ← right.evaluate env vars
    Value.tested Ordering.isLT a b
  | .binary .lte left right _ => do
    let a ← left.evaluate env vars
    let b ← right.evaluate env vars
    Value.tested Ordering.isLE a b
  | .binary .gt left right _ => do
    let a ← left.evaluate env vars
    let b ← right.evaluate env vars
    Value.tested Ordering.isGT a b
  | .binary .gte left right _ => do
    let a ← left.evaluate env vars
    let b ← right.evaluate env vars
    Value.tested Ordering.isGE a b
  | .filter name operand argument _ => do
    let v ← operand.evaluate env vars
    .ok (if name = defaultFilter then Filter.fallback v (argument.map .str) else env.applyFilter name v argument)

/-- `and` goes on where its left operand is true, and is decided by it otherwise. -/
theorem evaluate_and (env : Environment) (vars : Value) (left right : Expr) (span : Span) :
    (Expr.binary .and left right span).evaluate env vars = (do
      let v ← left.evaluate env vars
      if !v.isTrue then .ok v else right.evaluate env vars) := by
  rw [evaluate]
  congr 1
  funext v
  cases v.isTrue <;> rfl

/-- The values of the paths that are bound to names, in the order of the bindings. -/
def evaluateBindings (env : Environment) (vars : Value) :
    List (String × Expr) → Except Problem (List (String × Value))
  | [] => .ok []
  | (key, path) :: rest => do
    let v ← path.evaluate env vars
    let others ← evaluateBindings env vars rest
    .ok ((key, v) :: others)

end Expr

namespace Outcome

/-- Goes on behind an outcome unless that is a failure. -/
def andThen (outcome : Outcome) (next : Sink → Outcome) : Outcome :=
  match outcome.result with
  | .ok () => next outcome.sink
  | .error _ => outcome

/-- Goes on with a value, or fails where nothing was written yet. -/
def withValue {α : Type} (sink : Sink) (value : Except Problem α) (next : α → Outcome) : Outcome :=
  match value with
  | .ok a => next a
  | .error problem => ⟨sink, .error (.ofProblem problem)⟩

end Outcome

namespace Stmt

/-- What stands for a fill of the section `name`. -/
abbrev FillWriter := (name : String) → Sink → Outcome

section
variable (scene : Scene) (nested : Nested) (fill : FillWriter)

mutual

def evaluate : Stmt → Sink → Outcome
  | .text raw _, sink => sink.write raw
  | .output value _, sink =>
    .withValue sink (value.evaluate scene.env scene.vars) fun v => sink.write v.display
  | .conditional branches otherwise _, sink =>
    evaluateBranches (fun sink => evaluateOtherwise otherwise sink) branches sink
  | .each item collection part _, sink =>
    .withValue sink (collection.evaluate scene.env scene.vars) fun v =>
      match v.items? with
      | some items => Machine.eachItem scene nested item part sink items
      | none => ⟨sink, .error (.ofProblem (.notIterable v.kind))⟩
  | .inclusion name _, sink => Machine.fragment scene nested "include" name scene.vars sink
  | .embedding name bindings _, sink =>
    .withValue sink (Expr.evaluateBindings scene.env scene.vars bindings) fun bound =>
      Machine.fragment scene nested "embed" name (.merge [scene.root, .map (Fields.insertAll [] bound)]) sink
  | .fill name _, sink => fill name sink
  | .layout .., sink | .capture .., sink => ⟨sink, .ok ()⟩

def evaluateAll : List Stmt → Sink → Outcome
  | [], sink => ⟨sink, .ok ()⟩
  | stmt :: stmts, sink => (evaluate stmt sink).andThen fun sink => evaluateAll stmts sink

/-- The body of the first branch whose condition is true; conditions behind it are not looked at. -/
def evaluateBranches (otherwise : Sink → Outcome) : List (Expr × List Stmt) → Sink → Outcome
  | [], sink => otherwise sink
  | (condition, body) :: branches, sink =>
    .withValue sink (condition.evaluate scene.env scene.vars) fun v =>
      if v.isTrue then evaluateAll body sink else evaluateBranches otherwise branches sink

def evaluateOtherwise : Option (List Stmt) → Sink → Outcome
  | none, sink => ⟨sink, .ok ()⟩
  | some body, sink => evaluateAll body sink

end

end

/-- Statements whose fills go at most `depth` sections deep. A fill writes the statements of the
section that `sections` has under its name, and nothing if there is none. -/
def evaluateFilled (scene : Scene) (nested : Nested) (sections : String → Option CapturedSection) (depth : Nat) :
    List Stmt → Sink → Outcome :=
  evaluateAll scene nested fun name sink =>
    match sections name with
    | none => ⟨sink, .ok ()⟩
    | some captured =>
      match depth with
      | 0 => ⟨sink, .error (.ofProblem (.endlessFill name))⟩
      | depth + 1 =>
        match Filled.parsed captured with
        | .ok template => evaluateFilled scene nested sections depth template.children sink
        | .error fault => ⟨sink, .error ⟨fault, []⟩⟩

end Stmt

/-- A tag as it stands in the source of a template. -/
def Template.tag (s : String) : String :=
  "\x7b\x7b" ++ s ++ "\x7d\x7d"

/-- Failures of one problem with the same causes; they may name different places. -/
structure Failure.Alike (a b : Failure) : Prop where
  problem : a.fault.problem = b.fault.problem
  causes : a.causes = b.causes

/-- Outcomes that wrote the same and ended in the same way, up to the place a failure names. -/
structure Outcome.Alike (a b : Outcome) : Prop where
  sink : a.sink = b.sink
  result : match a.result, b.result with
    | .ok (), .ok () => True
    | .error f, .error g => f.Alike g
    | _, _ => False

end TextTemplate
