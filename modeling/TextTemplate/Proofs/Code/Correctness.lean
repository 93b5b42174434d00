import TextTemplate.Proofs.Code.Simulation

/-!
Running generated code is direct evaluation. The code of a statement writes what the statement
writes wherever the code stands, and a fill is code of the section's statements in its place.
-/
namespace TextTemplate

namespace Machine

variable {scene : Scene} {nested : Nested} {pc target stop : Nat} {stack after : List Value} {sink : Sink}
  {last : Instruction} {α : Type}

/-- The machine goes on at `stop` with another stack behind what was written, or fails in the same way. -/
def Follows (scene : Scene) (nested : Nested) (pc : Nat) (stack : List Value) (sink : Sink) (stop : Nat)
    (after : List Value) (outcome : Outcome) : Prop :=
  match outcome.result with
  | .ok () => run scene nested pc stack sink = run scene nested stop after outcome.sink
  | .error failure => ∃ other : Failure, other.Alike failure ∧
      run scene nested pc stack sink = ⟨outcome.sink, .error other⟩

theorem Follows.behind {outcome : Outcome} {next : Sink} {between : List Value}
    (same : run scene nested pc stack sink = run scene nested target between next)
    (rest : Follows scene nested target between next stop after outcome) :
    Follows scene nested pc stack sink stop after outcome := by
  unfold Follows
  rw [same]
  exact rest

theorem Follows.onto {outcome : Outcome} {middle : Nat} {between : List Value}
    (first : Follows scene nested pc stack sink middle between outcome)
    (same : ∀ sink, run scene nested middle between sink = run scene nested stop after sink) :
    Follows scene nested pc stack sink stop after outcome := by
  unfold Follows at first ⊢
  split at first
  · rw [first, same]
  · exact first

theorem Follows.andThen {outcome : Outcome} {next : Sink → Outcome} {middle : Nat} {between : List Value}
    (first : Follows scene nested pc stack sink middle between outcome)
    (rest : ∀ sink, Follows scene nested middle between sink stop after (next sink)) :
    Follows scene nested pc stack sink stop after (outcome.andThen next) := by
  obtain ⟨written, result⟩ := outcome
  cases result with
  | ok => exact .behind first (rest written)
  | error failure => exact first

theorem Computes.follows {result : Except Problem α} {middle : Nat} {push : α → List Value} {next : α → Outcome}
    (first : Computes scene nested pc stack sink middle push result)
    (rest : ∀ a, result = .ok a → Follows scene nested middle (push a) sink stop after (next a)) :
    Follows scene nested pc stack sink stop after (.withValue sink result next) := by
  cases result with
  | error problem => exact first
  | ok a => exact .behind first (rest a rfl)

/-- An instruction that writes and goes on, or fails up to the place it names. -/
theorem Follows.step {outcome : Outcome} (found : scene.template.listing.get? pc = some last)
    (effect : execute scene nested pc stack sink last = effectOf pc after outcome ∨
      execute scene nested pc stack sink last =
        effectOf pc after { outcome with result := outcome.result.mapError (located scene pc) }) :
    Follows scene nested pc stack sink (pc + 1) after outcome := by
  obtain ⟨next, result⟩ := outcome
  cases result with
  | ok =>
    have went : execute scene nested pc stack sink last = .goto (pc + 1) after next := by
      obtain effect | effect := effect <;> exact effect
    exact run_goto found went (Nat.lt_succ_self pc)
  | error failure =>
    obtain effect | effect := effect
    · exact ⟨failure, ⟨rfl, rfl⟩, run_failed found effect⟩
    · exact ⟨_, located_alike scene pc failure, run_failed found effect⟩

/-- Wherever the code stands and whatever is on the stack, the machine writes what `write` writes and
goes on behind the code, with the same stack. -/
def Realizes (scene : Scene) (nested : Nested) (code : List Located) (write : Sink → Outcome) : Prop :=
  ∀ ⦃pc stack sink⦄, scene.template.listing.Holds pc (code.map Prod.fst) →
    Follows scene nested pc stack sink (pc + code.length) stack (write sink)

theorem Realizes.nil : Realizes scene nested [] fun sink => ⟨sink, .ok ()⟩ :=
  fun _ _ _ _ => rfl

theorem Realizes.append {code rest : List Located} {write next : Sink → Outcome}
    (first : Realizes scene nested code write) (second : Realizes scene nested rest next) :
    Realizes scene nested (code ++ rest) fun sink => (write sink).andThen next := by
  intro pc stack sink holds
  rw [List.map_append] at holds
  obtain ⟨holds_code, holds_rest⟩ := Listing.holds_append.mp holds
  rw [List.length_map] at holds_rest
  rw [List.length_append, ← Nat.add_assoc]
  exact (first holds_code).andThen fun sink => second holds_rest

theorem locate_fst (origin : Origin) (code : List Instruction) : (locate origin code).map Prod.fst = code := by
  simp [locate, Function.comp_def]

/-- One branch: its body runs if the condition is true, and what is behind the body leads to the end;
otherwise the code of the other branches runs. -/
theorem Realizes.branch (condition : Expr) (origin : Origin) (leave : List Located) {inner others : List Located}
    {body rest : Sink → Outcome} (inside : Realizes scene nested inner body)
    (behind : Realizes scene nested others rest)
    (left : ∀ ⦃pc stack sink⦄, scene.template.listing.Holds pc ((leave ++ others).map Prod.fst) →
      run scene nested pc stack sink = run scene nested (pc + leave.length + others.length) stack sink) :
    Realizes scene nested (locate origin condition.code ++
        (.jumpIfFalse (inner.length + leave.length), origin) :: inner ++ (leave ++ others)) fun sink =>
      .withValue sink (condition.evaluate scene.env scene.vars) fun v =>
        if v.isTrue then body sink else rest sink := by
  intro pc stack sink holds
  simp only [List.append_assoc, List.cons_append, List.map_append, List.map_cons, locate_fst] at holds
  obtain ⟨holds_condition, holds⟩ := Listing.holds_append.mp holds
  obtain ⟨found, holds⟩ := Listing.holds_cons.mp holds
  obtain ⟨holds_inner, holds_behind⟩ := Listing.holds_append.mp holds
  have holds_others := (Listing.holds_append.mp holds_behind).2
  simp only [List.length_map] at holds_behind holds_others
  have stop : pc + (locate origin condition.code ++
      (Instruction.jumpIfFalse (inner.length + leave.length), origin) :: inner ++ (leave ++ others)).length =
        pc + condition.code.length + 1 + inner.length + leave.length + others.length := by
    simp only [locate, List.length_append, List.length_cons, List.length_map]
    omega
  rw [stop]
  refine (expr_computes condition holds_condition).follows fun v _ => ?_
  cases truth : v.isTrue with
  | true =>
    have entered : run scene nested (pc + condition.code.length) (v :: stack) sink =
        run scene nested (pc + condition.code.length + 1) stack sink :=
      run_goto found (by simp [execute, Instruction.retarget, truth]) (Nat.lt_succ_self _)
    exact .behind entered ((inside holds_inner).onto fun sink =>
      left (by simpa only [List.map_append] using holds_behind))
  | false =>
    have skipped : run scene nested (pc + condition.code.length) (v :: stack) sink =
        run scene nested (pc + condition.code.length + 1 + inner.length + leave.length) stack sink :=
      run_goto found (by simp [execute, Instruction.retarget, truth, Nat.add_assoc]) (by omega)
    exact .behind skipped (behind holds_others)

theorem Realizes.branches {template : Option String} {condition : Expr} {body : List Filled}
    {rest : List (Expr × List Filled)} {otherwise : Option (List Located)} {write others : Sink → Outcome}
    (inside : Realizes scene nested (Filled.codeAll template body) write)
    (behind : Realizes scene nested (Filled.branchesCode template otherwise rest) others) :
    Realizes scene nested (Filled.branchesCode template otherwise ((condition, body) :: rest)) fun sink =>
      .withValue sink (condition.evaluate scene.env scene.vars) fun v =>
        if v.isTrue then write sink else others sink := by
  rw [Filled.branchesCode]
  split
  · rename_i last
    -- nothing follows the body, so nothing has to be jumped over
    obtain ⟨empty, none⟩ : rest = [] ∧ otherwise = none := by simpa using last
    subst empty none
    have branch := Realizes.branch condition ⟨condition.span.start.line, template⟩ [] inside behind
      fun _ _ _ _ => rfl
    simpa [Filled.branchesCode] using branch
  · have branch := Realizes.branch condition ⟨condition.span.start.line, template⟩
      [(.jump (Filled.branchesCode template otherwise rest).length,
        ⟨Filled.lastLineAll condition.span.start.line body, template⟩)] inside behind
      fun _ _ _ holds => run_goto (Listing.holds_cons.mp holds).1 rfl (by simp only [List.length_singleton]; omega)
    simpa using branch

theorem Realizes.single {write : Sink → Outcome} {origin : Origin}
    (effect : ∀ pc stack sink, execute scene nested pc stack sink (last.retarget (pc + 1 + ·)) =
      effectOf pc stack (write sink)) :
    Realizes scene nested (locate origin [last]) write :=
  fun pc stack sink holds => .step (Listing.holds_cons.mp holds).1 (.inl (effect pc stack sink))

/-- Code of a value, and an instruction that writes what it makes of the value. -/
theorem Realizes.writes {value : Except Problem α} {push : List Value → α → List Value} {code : List Instruction}
    {write : α → Sink → Outcome} {origin : Origin}
    (computes : ∀ {pc stack sink}, scene.template.listing.Holds pc code →
      Computes scene nested pc stack sink (pc + code.length) (push stack) value)
    (effect : ∀ a pc stack sink,
      execute scene nested pc (push stack a) sink (last.retarget (pc + 1 + ·)) = effectOf pc stack (write a sink) ∨
      execute scene nested pc (push stack a) sink (last.retarget (pc + 1 + ·)) = effectOf pc stack
        { write a sink with result := (write a sink).result.mapError (located scene pc) }) :
    Realizes scene nested (locate origin (code ++ [last])) fun sink => .withValue sink value (write · sink) := by
  intro pc stack sink holds
  rw [locate_fst] at holds
  obtain ⟨holds_code, holds_last⟩ := Listing.holds_append.mp holds
  rw [locate, List.length_map, List.length_append, ← Nat.add_assoc]
  exact (computes holds_code).follows fun a _ => .step (Listing.holds_cons.mp holds_last).1 (effect a _ stack sink)

theorem codeAll_append (template : Option String) (first rest : List Filled) :
    Filled.codeAll template (first ++ rest) = Filled.codeAll template first ++ Filled.codeAll template rest := by
  induction first with
  | nil => simp [Filled.codeAll]
  | cons statement first ih => simp [Filled.codeAll, ih]

/-- What a machine needs of the statements that stand for fills. -/
structure Fills (scene : Scene) (nested : Nested) (session : Session) (filling : Filled.Filling)
    (fill : Stmt.FillWriter) : Prop where
  missing : ∀ {name}, session.section? name = none → fill name = fun sink => ⟨sink, .ok ()⟩
  captured : ∀ {name captured body}, session.section? name = some captured → filling name captured = .ok body →
    ∀ template, Realizes scene nested (Filled.codeAll template body) (fill name)

mutual

theorem stmt_realizes {session : Session} {filling : Filled.Filling} {fill : Stmt.FillWriter}
    (fills : Fills scene nested session filling fill) (template : Option String) :
    (stmt : Stmt) → {filled : List Filled} → Filled.ofStmt session filling stmt = .ok filled →
      Realizes scene nested (Filled.codeAll template filled) (Stmt.evaluate scene nested fill stmt)
  | .text raw span, filled, resolved => by
    obtain rfl := Except.ok.inj resolved
    exact Realizes.single fun _ _ _ => rfl
  | .output value span, filled, resolved => by
    obtain rfl := Except.ok.inj resolved
    rw [Filled.codeAll, Filled.code, Filled.codeAll, List.append_nil]
    exact .writes (fun holds => expr_computes value holds) fun _ _ _ _ => .inl rfl
  | .conditional branches otherwise span, filled, resolved => by
    rw [Filled.ofStmt] at resolved
    obtain ⟨filledBranches, resolvedBranches, resolved⟩ := bind_eq_ok.mp resolved
    obtain ⟨filledOtherwise, resolvedOtherwise, same⟩ := bind_eq_ok.mp resolved
    obtain rfl := Except.ok.inj same
    rw [Filled.codeAll, Filled.code, Filled.codeAll, List.append_nil]
    have behind := otherwise_realizes fills template otherwise resolvedOtherwise
    exact branches_realize fills template branches resolvedBranches behind
  | .each item collection part span, filled, resolved => by
    obtain rfl := Except.ok.inj resolved
    rw [Filled.codeAll, Filled.code, Filled.codeAll, List.append_nil]
    refine .writes (fun holds => expr_computes collection holds) fun v pc stack sink => .inr ?_
    simp only [execute, Instruction.retarget]
    cases v.items? with
    | none => rfl
    | some items =>
      simp only
      generalize eachItem scene nested item part sink items = outcome
      obtain ⟨written, result⟩ := outcome
      cases result <;> rfl
  | .inclusion name span, filled, resolved => by
    obtain rfl := Except.ok.inj resolved
    exact Realizes.single fun _ _ _ => rfl
  | .embedding name bindings span, filled, resolved => by
    obtain rfl := Except.ok.inj resolved
    rw [Filled.codeAll, Filled.code, Filled.codeAll, List.append_nil, List.append_cons]
    exact .writes (fun holds => map_computes bindings rfl holds) fun _ _ _ _ => .inl rfl
  | .fill name span, filled, resolved => by
    rw [Filled.ofStmt] at resolved
    split at resolved
    · rename_i missing
      obtain rfl := Except.ok.inj resolved
      change Realizes scene nested [] (fill name)
      rw [fills.missing missing]
      exact .nil
    · rename_i captured found
      obtain ⟨body, filledBody, same⟩ := bind_eq_ok.mp resolved
      obtain rfl := Except.ok.inj same
      rw [Filled.codeAll, Filled.code, Filled.codeAll, List.append_nil]
      exact fills.captured found filledBody _
  | .layout .., filled, resolved => by
    obtain rfl := Except.ok.inj resolved
    exact .nil
  | .capture .., filled, resolved => by
    obtain rfl := Except.ok.inj resolved
    exact .nil

theorem all_realize {session : Session} {filling : Filled.Filling} {fill : Stmt.FillWriter}
    (fills : Fills scene nested session filling fill) (template : Option String) :
    (stmts : List Stmt) → {filled : List Filled} → Filled.ofAll session filling stmts = .ok filled →
      Realizes scene nested (Filled.codeAll template filled) (Stmt.evaluateAll scene nested fill stmts)
  | [], filled, resolved => by
    obtain rfl := Except.ok.inj resolved
    exact .nil
  | stmt :: stmts, filled, resolved => by
    rw [Filled.ofAll] at resolved
    obtain ⟨first, resolvedFirst, resolved⟩ := bind_eq_ok.mp resolved
    obtain ⟨rest, resolvedRest, same⟩ := bind_eq_ok.mp resolved
    obtain rfl := Except.ok.inj same
    rw [codeAll_append]
    exact (stmt_realizes fills template stmt resolvedFirst).append (all_realize fills template stmts resolvedRest)

theorem branches_realize {session : Session} {filling : Filled.Filling} {fill : Stmt.FillWriter}
    (fills : Fills scene nested session filling fill) (template : Option String) :
    (branches : List (Expr × List Stmt)) → {filled : List (Expr × List Filled)} →
      Filled.ofBranches session filling branches = .ok filled →
      {code : Option (List Located)} → {otherwise : Sink → Outcome} →
      Realizes scene nested (code.getD []) otherwise →
      Realizes scene nested (Filled.branchesCode template code filled)
        (Stmt.evaluateBranches scene nested fill otherwise branches)
  | [], filled, resolved, code, otherwise, behind => by
    obtain rfl := Except.ok.inj resolved
    exact behind
  | (condition, body) :: branches, filled, resolved, code, otherwise, behind => by
    rw [Filled.ofBranches] at resolved
    obtain ⟨filledBody, resolvedBody, resolved⟩ := bind_eq_ok.mp resolved
    obtain ⟨filledRest, resolvedRest, same⟩ := bind_eq_ok.mp resolved
    obtain rfl := Except.ok.inj same
    exact (all_realize fills template body resolvedBody).branches
      (branches_realize fills template branches resolvedRest behind)

theorem otherwise_realizes {session : Session} {filling : Filled.Filling} {fill : Stmt.FillWriter}
    (fills : Fills scene nested session filling fill) (template : Option String) :
    (otherwise : Option (List Stmt)) → {filled : Option (List Filled)} →
      Filled.ofOtherwise session filling otherwise = .ok filled →
      Realizes scene nested ((Filled.otherwiseCode template filled).getD [])
        (Stmt.evaluateOtherwise scene nested fill otherwise)
  | none, filled, resolved => by
    obtain rfl := Except.ok.inj resolved
    exact .nil
  | some body, filled, resolved => by
    rw [Filled.ofOtherwise] at resolved
    obtain ⟨filledBody, resolvedBody, same⟩ := bind_eq_ok.mp resolved
    obtain rfl := Except.ok.inj same
    exact all_realize fills template body resolvedBody

end

/-- Fills that were resolved up to some depth are evaluated in the same way at any greater depth. -/
theorem filled_realizes {session : Session} {resolvedDepth depth : Nat} (enough : resolvedDepth ≤ depth)
    (template : Option String) (stmts : List Stmt) {filled : List Filled}
    (resolved : Filled.ofStmts session resolvedDepth stmts = .ok filled) :
    Realizes scene nested (Filled.codeAll template filled)
      (Stmt.evaluateFilled scene nested session.section? depth stmts) := by
  induction resolvedDepth generalizing depth template stmts filled with
  | zero =>
    unfold Stmt.evaluateFilled
    refine all_realize ⟨fun missing => ?_, fun _ impossible => ?_⟩ template stmts resolved
    · simp only [missing]
    · cases impossible
  | succ resolvedDepth ih =>
    obtain ⟨depth, rfl⟩ : ∃ below, depth = below + 1 := ⟨depth - 1, by omega⟩
    unfold Stmt.evaluateFilled
    refine all_realize ⟨fun missing => ?_, fun found filledBody origin => ?_⟩ template stmts resolved
    · simp only [missing]
    · obtain ⟨part, parsed, resolvedPart⟩ := bind_eq_ok.mp filledBody
      simp only [found, parsed]
      exact ih (Nat.le_of_succ_le_succ enough) origin part.children resolvedPart

theorem Realizes.run_alike {statements : List Filled} {write : Sink → Outcome}
    (realizes : Realizes scene nested (Filled.codeAll none statements) write)
    (generated : scene.template.listing = .ofStatements statements) (sink : Sink) :
    (run scene nested 0 [] sink).Alike (write sink) := by
  have holds := Listing.holds_ofStatements statements
  rw [← generated] at holds
  have follows : Follows scene nested 0 [] sink (0 + (Filled.codeAll none statements).length) [] (write sink) :=
    realizes holds
  rw [Nat.zero_add, ← Listing.size_ofStatements, ← generated] at follows
  generalize write sink = outcome at follows ⊢
  obtain ⟨written, result⟩ := outcome
  cases result with
  | ok =>
    have ran : run scene nested 0 [] sink =
        run scene nested scene.template.listing.instructions.size [] written := follows
    rw [ran, run_end (Nat.le_refl _)]
    exact ⟨rfl, trivial⟩
  | error failure =>
    obtain ⟨other, alike, ran⟩ := follows
    rw [ran]
    exact ⟨rfl, alike⟩

/-- Compiler correctness. Code that was generated for statements, with their fills resolved against a
session, writes to any sink what the statements write when they are evaluated one inside the other,
and ends as they do; a failure may only name another place. Nothing is assumed of the renders of
other templates, so this holds at every depth. The evaluation may follow fills as deep as it likes. -/
theorem run_generated_alike (scene : Scene) (nested : Nested) (session : Session) (stmts : List Stmt)
    {statements : List Filled} (resolved : Filled.ofStmts session maxFillDepth stmts = .ok statements)
    (generated : scene.template.listing = .ofStatements statements) {depth : Nat} (enough : maxFillDepth ≤ depth)
    (sink : Sink) :
    (run scene nested 0 [] sink).Alike (Stmt.evaluateFilled scene nested session.section? depth stmts sink) :=
  (filled_realizes enough none stmts resolved).run_alike generated sink

/-- A page with a fill in one of its branches, where the section embeds a card in a branch of its own. -/
theorem run_generated_alike_page :
    let source := Template.tag "if a and b > 1" ++ Template.tag "fill 'side'" ++ Template.tag "elseif c" ++ "no" ++
      Template.tag "else" ++ Template.tag "a|upper|default:'none'" ++ Template.tag "endif"
    let body := Template.tag "if not c" ++ Template.tag "embed 'card' with ['x' => a, 'x' => b.d]" ++
      Template.tag "endif"
    let session := (({} : Session).captureText "side" body).1
    let nested : Nested := fun name _ _ sink => sink.write name
    ∃ page statements, Template.parse source "page" = .ok page ∧
      Filled.ofStmts session maxFillDepth page.children = .ok statements ∧
      let scene : Scene := ⟨{}, ⟨"page", source, .ofStatements statements⟩, session, .map [],
        .map [("a", .bool true), ("b", .int 2)]⟩
      (run scene nested 0 [] (.text "")).Alike
        (Stmt.evaluateFilled scene nested session.section? maxFillDepth page.children (.text "")) := by
  intro source body session nested
  obtain ⟨page, parsed, resolves⟩ : ∃ page, Template.parse source "page" = .ok page ∧
      (Filled.ofStmts session maxFillDepth page.children).isOk = true := by
    decide +kernel
  have resolved := eq_ok_getD [] resolves
  exact ⟨page, _, parsed, resolved,
    run_generated_alike _ nested session page.children resolved rfl (Nat.le_refl _) (.text "")⟩

end Machine

end TextTemplate
