import TextTemplate.Proofs.Code.Culprits
import TextTemplate.Proofs.Code.Origins

/-!
Failing runs of generated code. Where the statements fail, the code fails with the same, and names the
line and the template of what fails.
-/
namespace TextTemplate

/-- A failure that names where it comes from. -/
def Scene.blaming (scene : Scene) : Option Culprit → Failure → Failure
  | none, failure => failure
  | some culprit, failure => scene.report culprit.origin failure

namespace Listing

/-- Behind the code of a condition stands a jump, then the body of the branch, and where the jump leads to, the
other branches. -/
theorem Stands.branches {listing : Listing} {start : Nat} {template : Option String} {condition : Expr}
    {body : List Filled} {rest : List (Expr × List Filled)} {otherwise : Option (List Located)}
    (stands : listing.Stands start (Filled.branchesCode template otherwise ((condition, body) :: rest))) :
    listing.Stands start (locate ⟨condition.span.start.line, template⟩ condition.code) ∧
      ∃ distance,
        listing.get? (start + condition.code.length) =
          some (.jumpIfFalse (start + condition.code.length + 1 + distance)) ∧
        listing.Stands (start + condition.code.length + 1) (Filled.codeAll template body) ∧
        listing.Stands (start + condition.code.length + 1 + distance) (Filled.branchesCode template otherwise rest) := by
  rw [Filled.branchesCode] at stands
  split at stands
  · rename_i last
    obtain ⟨rfl, rfl⟩ : rest = [] ∧ otherwise = none := by simpa using last
    rw [stands_append, length_locate] at stands
    obtain ⟨standsCondition, standsJump⟩ := stands
    exact ⟨standsCondition, _, standsJump.first.1, standsJump.behind, .nil⟩
  · rw [List.append_assoc, stands_append, length_locate, List.cons_append] at stands
    obtain ⟨standsCondition, standsJump⟩ := stands
    have behind := standsJump.behind
    rw [stands_append] at behind
    refine ⟨standsCondition, _, standsJump.first.1, behind.1, ?_⟩
    rw [← Nat.add_assoc]
    exact behind.2.behind

end Listing

namespace Machine

variable {scene : Scene} {nested : Nested} {α : Type}

/-- A failure is that of the render that a culprit names, or a problem of its own; without a culprit it
is one of the output. -/
def Explains (scene : Scene) (nested : Nested) : Option Culprit → Failure → Prop
  | none, failure => failure = .ofProblem .formattingFailed
  | some ⟨_, _, none⟩, failure => ∃ problem, failure = .ofProblem problem
  | some ⟨_, _, some call⟩, failure => (call.answer scene nested).result = .error failure

/-- Where the writing fails, the run of the code fails with the same, and names the culprit. -/
def Fails (scene : Scene) (nested : Nested) (code : List Located) (write : Sink → Outcome)
    (culprit : Sink → Option Culprit) : Prop :=
  ∀ ⦃pc stack sink written failure⦄, scene.template.listing.Stands pc code → write sink = ⟨written, .error failure⟩ →
    run scene nested pc stack sink = ⟨written, .error (scene.blaming (culprit sink) failure)⟩ ∧
      Explains scene nested (culprit sink) failure

theorem Fails.nil {culprit : Sink → Option Culprit} : Fails scene nested [] (fun sink => ⟨sink, .ok ()⟩) culprit := by
  intro pc stack sink written failure _ fails
  cases fails

theorem Fails.append {code rest : List Located} {write next : Sink → Outcome}
    {culprit later : Sink → Option Culprit} (realizes : Realizes scene nested code write)
    (first : Fails scene nested code write culprit) (second : Fails scene nested rest next later) :
    Fails scene nested (code ++ rest) (fun sink => (write sink).andThen next) fun sink =>
      match (write sink).result with
      | .ok () => later (write sink).sink
      | .error _ => culprit sink := by
  intro pc stack sink written failure stands fails
  obtain ⟨standsFirst, standsRest⟩ := Listing.stands_append.mp stands
  have follows : Follows scene nested pc stack sink _ stack _ := realizes standsFirst.holds
  dsimp only at fails ⊢
  cases outcome : write sink with
  | mk middle result =>
    rw [outcome] at fails follows
    cases result with
    | ok =>
      have ran : run scene nested pc stack sink = run scene nested (pc + code.length) stack middle := follows
      rw [ran]
      exact second standsRest fails
    | error cause =>
      obtain ⟨rfl, same⟩ := Outcome.mk.inj fails
      obtain rfl := Except.error.inj same
      exact first standsFirst outcome

/-- The last of the renders for the items of a collection is the one that fails. -/
theorem eachItem_fails {item part : String} {items : List Value} {sink written : Sink} {failure : Failure}
    (fails : eachItem scene nested item part sink items = ⟨written, .error failure⟩) :
    ∃ call, (itemCalls scene nested item part sink items).getLast? = some call ∧
      (call.answer scene nested).result = .error failure := by
  induction items generalizing sink with
  | nil => cases fails
  | cons v items ih =>
    rw [eachItem_cons] at fails
    let call : Call := ⟨part, scene.root.withEntry item v, sink⟩
    have answer : call.answer scene nested = nested part (scene.root.withEntry item v) scene.session.fork sink := rfl
    rw [itemCalls]
    rw [← answer] at fails
    cases ends : call.answer scene nested with
    | mk middle result =>
      rw [ends] at fails
      cases result with
      | ok =>
        obtain ⟨last, found, failed⟩ := ih fails
        refine ⟨last, ?_, failed⟩
        rw [List.getLast?_cons, found]
        rfl
      | error cause =>
        obtain ⟨rfl, same⟩ := Outcome.mk.inj fails
        obtain rfl := Except.error.inj same
        exact ⟨call, rfl, by rw [ends]⟩

variable {write : Sink → Outcome} {last : Instruction} {origin : Origin}

/-- An instruction whose failures are those of its output. -/
theorem Fails.single
    (effect : ∀ pc stack sink, execute scene nested pc stack sink (last.retarget (pc + 1 + ·)) =
      effectOf pc stack (write sink))
    (output : ∀ sink failure, (write sink).result = .error failure → failure = .ofProblem .formattingFailed) :
    Fails scene nested (locate origin [last]) write fun _ => none := by
  intro pc stack sink written failure stands fails
  obtain rfl := output sink failure (congrArg Outcome.result fails)
  refine ⟨run_failed stands.first.1 ?_, rfl⟩
  rw [effect, fails]
  rfl

/-- Code of a value, and an instruction that writes what it makes of the value. -/
theorem Fails.writes {value : Except Problem α} {push : List Value → α → List Value} {code : List Instruction}
    {write : α → Sink → Outcome} {template : Option String} {after : α → Sink → Option Culprit} (node : Node)
    (computes : ∀ {pc stack sink a}, value = .ok a → scene.template.listing.Stands pc (locate ⟨node.line, template⟩ code) →
      run scene nested pc stack sink = run scene nested (pc + code.length) (push stack a) sink)
    (breaks : ∀ {pc stack sink problem}, value = .error problem →
      scene.template.listing.Stands pc (locate ⟨node.line, template⟩ code) →
      Breaks scene nested pc stack sink ⟨node.line, template⟩ problem)
    (fails : ∀ {a pc stack sink written failure}, scene.template.listing.origin? pc = some ⟨node.line, template⟩ →
      write a sink = ⟨written, .error failure⟩ →
      execute scene nested pc (push stack a) sink (last.retarget (pc + 1 + ·)) =
          .failed written (scene.blaming (after a sink) failure) ∧
        Explains scene nested (after a sink) failure) :
    Fails scene nested (locate ⟨node.line, template⟩ (code ++ [last])) (fun sink => .withValue sink value (write · sink))
      fun sink => Culprit.ofValue node template value (after · sink) := by
  intro pc stack sink written failure stands failed
  rw [locate_append, Listing.stands_append, length_locate] at stands
  obtain ⟨standsCode, standsLast⟩ := stands
  cases value with
  | error problem =>
    obtain ⟨rfl, same⟩ := Outcome.mk.inj failed
    obtain rfl := Except.error.inj same
    exact ⟨breaks rfl standsCode, problem, rfl⟩
  | ok a =>
    obtain ⟨effect, explained⟩ := fails standsLast.first.2 failed
    rw [computes rfl standsCode]
    exact ⟨run_failed standsLast.first.1 effect, explained⟩

/-- What fails of a conditional's branches is a condition, or the body of the branch that runs. -/
theorem Fails.branches {template : Option String} {condition : Expr} {body : List Filled}
    {rest : List (Expr × List Filled)} {otherwise : Option (List Located)} {write others : Sink → Outcome}
    {culprit later : Sink → Option Culprit}
    (inside : Fails scene nested (Filled.codeAll template body) write culprit)
    (behind : Fails scene nested (Filled.branchesCode template otherwise rest) others later) :
    Fails scene nested (Filled.branchesCode template otherwise ((condition, body) :: rest))
      (fun sink => .withValue sink (condition.evaluate scene.env scene.vars) fun v =>
        if v.isTrue then write sink else others sink)
      fun sink =>
        Culprit.ofValue (.condition condition) template (condition.evaluate scene.env scene.vars) fun v =>
          if v.isTrue then culprit sink else later sink := by
  intro pc stack sink written failure stands failed
  obtain ⟨standsCondition, distance, found, standsBody, standsRest⟩ := stands.branches
  cases evaluated : condition.evaluate scene.env scene.vars with
  | error problem =>
    rw [evaluated] at failed
    obtain ⟨rfl, same⟩ := Outcome.mk.inj failed
    obtain rfl := Except.error.inj same
    have breaks : Breaks scene nested pc stack sink _ problem := expr_breaks condition evaluated standsCondition
    exact ⟨breaks, problem, rfl⟩
  | ok v =>
    rw [evaluated] at failed
    have failed : (if v.isTrue then write sink else others sink) = ⟨written, .error failure⟩ := failed
    dsimp only [Culprit.ofValue]
    rw [expr_runs evaluated standsCondition]
    cases truth : v.isTrue with
    | true =>
      have entered : run scene nested (pc + condition.code.length) (v :: stack) sink =
          run scene nested (pc + condition.code.length + 1) stack sink :=
        run_goto found (by simp [execute, truth]) (Nat.lt_succ_self _)
      rw [truth, if_pos rfl] at failed
      rw [if_pos rfl, entered]
      exact inside standsBody failed
    | false =>
      have skipped : run scene nested (pc + condition.code.length) (v :: stack) sink =
          run scene nested (pc + condition.code.length + 1 + distance) stack sink :=
        run_goto found (by simp [execute, truth]) (by omega)
      rw [truth, if_neg Bool.false_ne_true] at failed
      rw [if_neg Bool.false_ne_true, skipped]
      exact behind standsRest failed

/-- What the statements that stand for fills do when they fail. -/
structure FillsFail (scene : Scene) (nested : Nested) (session : Session) (filling : Filled.Filling)
    (fill : Stmt.FillWriter) (filled : Stmt.FillCulprit) : Prop where
  realizes : Fills scene nested session filling fill
  fails : ∀ {name captured body}, session.section? name = some captured → filling name captured = .ok body →
    Fails scene nested (Filled.codeAll (some captured.origin) body) (fill name) (filled name)

section
variable {session : Session} {filling : Filled.Filling} {fill : Stmt.FillWriter} {filled : Stmt.FillCulprit}

mutual

theorem stmt_fails (fills : FillsFail scene nested session filling fill filled) (template : Option String) :
    (stmt : Stmt) → {statements : List Filled} → Filled.ofStmt session filling stmt = .ok statements →
      Fails scene nested (Filled.codeAll template statements) (Stmt.evaluate scene nested fill stmt)
        (Stmt.culprit scene nested fill filled template stmt)
  | .text raw span, statements, resolved => by
    obtain rfl := Except.ok.inj resolved
    exact .single (fun _ _ _ => rfl) fun _ _ => write_failure
  | .output value span, statements, resolved => by
    obtain rfl := Except.ok.inj resolved
    rw [Filled.codeAll, Filled.code, Filled.codeAll, List.append_nil]
    refine Fails.writes (.tag (.output value span)) expr_runs (expr_breaks value) fun _ fails => ?_
    obtain rfl := write_failure (congrArg Outcome.result fails)
    refine ⟨?_, rfl⟩
    simp only [execute, Instruction.retarget]
    rw [fails]
    rfl
  | .conditional branches otherwise span, statements, resolved => by
    rw [Filled.ofStmt] at resolved
    obtain ⟨filledBranches, resolvedBranches, resolved⟩ := bind_eq_ok.mp resolved
    obtain ⟨filledOtherwise, resolvedOtherwise, same⟩ := bind_eq_ok.mp resolved
    obtain rfl := Except.ok.inj same
    rw [Filled.codeAll, Filled.code, Filled.codeAll, List.append_nil]
    exact branches_fail fills template branches resolvedBranches
      (otherwise_fails fills template otherwise resolvedOtherwise)
  | .each item collection part span, statements, resolved => by
    obtain rfl := Except.ok.inj resolved
    rw [Filled.codeAll, Filled.code, Filled.codeAll, List.append_nil]
    refine Fails.writes (.tag (.each item collection part span)) expr_runs (expr_breaks collection)
      fun {v pc stack sink written failure} there fails => ?_
    simp only [execute, Instruction.retarget]
    cases items : v.items? with
    | none =>
      rw [items] at fails
      obtain ⟨rfl, same⟩ := Outcome.mk.inj fails
      obtain rfl := Except.error.inj same
      exact ⟨congrArg (Effect.failed sink) (located_eq_report there), _, rfl⟩
    | some items =>
      rw [items] at fails
      dsimp only at fails ⊢
      obtain ⟨call, last, failed⟩ := eachItem_fails fails
      rw [Option.getD_some, last, fails]
      exact ⟨congrArg (Effect.failed written) (located_eq_report there), failed⟩
  | .inclusion name span, statements, resolved => by
    obtain rfl := Except.ok.inj resolved
    exact .single (fun _ _ _ => rfl) fun _ _ => fragment_failure
  | .embedding name bindings span, statements, resolved => by
    obtain rfl := Except.ok.inj resolved
    rw [Filled.codeAll, Filled.code, Filled.codeAll, List.append_nil, List.append_cons]
    refine Fails.writes (.tag (.embedding name bindings span)) map_runs (map_breaks bindings) fun _ fails => ?_
    obtain rfl := fragment_failure (congrArg Outcome.result fails)
    refine ⟨?_, rfl⟩
    simp only [execute, Instruction.retarget]
    rw [fails]
    rfl
  | .fill name span, statements, resolved => by
    rw [Filled.ofStmt] at resolved
    split at resolved
    · rename_i missing
      obtain rfl := Except.ok.inj resolved
      change Fails scene nested [] (fill name) (filled name)
      rw [fills.realizes.missing missing]
      exact .nil
    · rename_i captured found
      obtain ⟨body, filledBody, same⟩ := bind_eq_ok.mp resolved
      obtain rfl := Except.ok.inj same
      rw [Filled.codeAll, Filled.code, Filled.codeAll, List.append_nil]
      exact fills.fails found filledBody
  | .layout .., statements, resolved => by
    obtain rfl := Except.ok.inj resolved
    exact .nil
  | .capture .., statements, resolved => by
    obtain rfl := Except.ok.inj resolved
    exact .nil

theorem all_fail (fills : FillsFail scene nested session filling fill filled) (template : Option String) :
    (stmts : List Stmt) → {statements : List Filled} → Filled.ofAll session filling stmts = .ok statements →
      Fails scene nested (Filled.codeAll template statements) (Stmt.evaluateAll scene nested fill stmts)
        (Stmt.allCulprit scene nested fill filled template stmts)
  | [], statements, resolved => by
    obtain rfl := Except.ok.inj resolved
    exact .nil
  | stmt :: stmts, statements, resolved => by
    rw [Filled.ofAll] at resolved
    obtain ⟨first, resolvedFirst, resolved⟩ := bind_eq_ok.mp resolved
    obtain ⟨rest, resolvedRest, same⟩ := bind_eq_ok.mp resolved
    obtain rfl := Except.ok.inj same
    rw [codeAll_append]
    exact .append (stmt_realizes fills.realizes template stmt resolvedFirst)
      (stmt_fails fills template stmt resolvedFirst) (all_fail fills template stmts resolvedRest)

theorem branches_fail (fills : FillsFail scene nested session filling fill filled) (template : Option String) :
    (branches : List (Expr × List Stmt)) → {statements : List (Expr × List Filled)} →
      Filled.ofBranches session filling branches = .ok statements →
      {code : Option (List Located)} → {otherwise : Sink → Outcome} → {culprit : Sink → Option Culprit} →
      Fails scene nested (code.getD []) otherwise culprit →
      Fails scene nested (Filled.branchesCode template code statements)
        (Stmt.evaluateBranches scene nested fill otherwise branches)
        (Stmt.branchesCulprit scene nested fill filled template culprit branches)
  | [], statements, resolved, code, otherwise, culprit, behind => by
    obtain rfl := Except.ok.inj resolved
    exact behind
  | (condition, body) :: branches, statements, resolved, code, otherwise, culprit, behind => by
    rw [Filled.ofBranches] at resolved
    obtain ⟨filledBody, resolvedBody, resolved⟩ := bind_eq_ok.mp resolved
    obtain ⟨filledRest, resolvedRest, same⟩ := bind_eq_ok.mp resolved
    obtain rfl := Except.ok.inj same
    exact (all_fail fills template body resolvedBody).branches
      (branches_fail fills template branches resolvedRest behind)

theorem otherwise_fails (fills : FillsFail scene nested session filling fill filled) (template : Option String) :
    (otherwise : Option (List Stmt)) → {statements : Option (List Filled)} →
      Filled.ofOtherwise session filling otherwise = .ok statements →
      Fails scene nested ((Filled.otherwiseCode template statements).getD [])
        (Stmt.evaluateOtherwise scene nested fill otherwise)
        (Stmt.otherwiseCulprit scene nested fill filled template otherwise)
  | none, statements, resolved => by
    obtain rfl := Except.ok.inj resolved
    exact .nil
  | some body, statements, resolved => by
    rw [Filled.ofOtherwise] at resolved
    obtain ⟨filledBody, resolvedBody, same⟩ := bind_eq_ok.mp resolved
    obtain rfl := Except.ok.inj same
    exact all_fail fills template body resolvedBody

end

end

/-- Where statements fail whose fills were resolved up to some depth, the code names what fails. -/
theorem filled_fail {session : Session} {resolvedDepth depth : Nat} (enough : resolvedDepth ≤ depth)
    (template : Option String) (stmts : List Stmt) {statements : List Filled}
    (resolved : Filled.ofStmts session resolvedDepth stmts = .ok statements) :
    Fails scene nested (Filled.codeAll template statements)
      (Stmt.evaluateFilled scene nested session.section? depth stmts)
      (Stmt.filledCulprit scene nested session.section? depth template stmts) := by
  induction resolvedDepth generalizing depth template stmts statements with
  | zero =>
    rw [Stmt.evaluateFilled_eq]
    unfold Stmt.filledCulprit
    refine all_fail ⟨⟨fun missing => ?_, fun _ impossible => ?_⟩, fun _ impossible => ?_⟩ template stmts resolved
    · exact Stmt.fillWriter_missing missing depth
    · cases impossible
    · cases impossible
  | succ resolvedDepth ih =>
    obtain ⟨depth, rfl⟩ : ∃ below, depth = below + 1 := ⟨depth - 1, by omega⟩
    rw [Stmt.evaluateFilled_eq]
    unfold Stmt.filledCulprit
    refine all_fail ⟨⟨fun missing => ?_, fun found filledBody origin => ?_⟩, fun found filledBody => ?_⟩ template stmts
      resolved
    · exact Stmt.fillWriter_missing missing _
    · obtain ⟨part, parsed, resolvedPart⟩ := bind_eq_ok.mp filledBody
      rw [Stmt.fillWriter_captured found parsed]
      exact filled_realizes (Nat.le_of_succ_le_succ enough) origin part.children resolvedPart
    · obtain ⟨part, parsed, resolvedPart⟩ := bind_eq_ok.mp filledBody
      rw [Stmt.fillWriter_captured found parsed]
      simp only [found, parsed]
      exact ih (Nat.le_of_succ_le_succ enough) _ part.children resolvedPart

/-- A run of generated code fails with what the evaluation of the statements fails with, and names the node that
fails. -/
theorem run_fails {session : Session} {stmts : List Stmt} {statements : List Filled} {sink written : Sink}
    {failure : Failure} (resolved : Filled.ofStmts session maxFillDepth stmts = .ok statements)
    (generated : scene.template.listing = .ofStatements statements)
    (fails : Stmt.evaluateFilled scene nested session.section? maxFillDepth stmts sink = ⟨written, .error failure⟩) :
    let culprit := Stmt.filledCulprit scene nested session.section? maxFillDepth none stmts sink
    run scene nested 0 [] sink = ⟨written, .error (scene.blaming culprit failure)⟩ ∧
      Explains scene nested culprit failure := by
  have stands := Listing.stands_ofStatements statements
  rw [← generated] at stands
  exact filled_fail (Nat.le_refl _) none stmts resolved stands fails

end Machine

end TextTemplate
