import Mathlib.Data.List.Induction
import TextTemplate.Proofs.Code.Placement
import TextTemplate.Proofs.Evaluation
import TextTemplate.Proofs.Results

/-!
Running the code of expressions. Code is followed at any place of a listing and above any stack, so
that the code of parts can be put together; it leaves the value of the expression on the stack, or
fails with the problem that the expression has.
-/
namespace TextTemplate

namespace Machine

variable {scene : Scene} {nested : Nested} {pc target stop : Nat} {stack after : List Value} {sink : Sink}
  {instruction : Instruction} {α β : Type}

theorem run_goto {next : Sink} (found : scene.template.listing.get? pc = some instruction)
    (effect : execute scene nested pc stack sink instruction = .goto target after next) (forward : pc < target) :
    run scene nested pc stack sink = run scene nested target after next := by
  obtain ⟨inside, rfl⟩ := Array.getElem?_eq_some_iff.mp found
  rw [run, dif_pos inside, effect]
  exact if_pos forward

theorem run_failed {next : Sink} {failure : Failure} (found : scene.template.listing.get? pc = some instruction)
    (effect : execute scene nested pc stack sink instruction = .failed next failure) :
    run scene nested pc stack sink = ⟨next, .error failure⟩ := by
  obtain ⟨inside, rfl⟩ := Array.getElem?_eq_some_iff.mp found
  rw [run, dif_pos inside, effect]

theorem run_end (behind : scene.template.listing.instructions.size ≤ pc) :
    run scene nested pc stack sink = ⟨sink, .ok ()⟩ := by
  rw [run, dif_neg (by omega)]

theorem located_alike (scene : Scene) (pc : Nat) (failure : Failure) : (located scene pc failure).Alike failure := by
  refine ⟨?_, rfl⟩
  simp only [located, Fault.placedAt, Fault.withSource, Fault.withListing]
  repeat' split
  all_goals rfl

/-- The machine goes on at `stop` with what was computed on the stack, or fails with the problem. -/
def Computes (scene : Scene) (nested : Nested) (pc : Nat) (stack : List Value) (sink : Sink) (stop : Nat)
    (push : α → List Value) : Except Problem α → Prop
  | .ok a => run scene nested pc stack sink = run scene nested stop (push a) sink
  | .error problem => ∃ failure : Failure, failure.Alike (.ofProblem problem) ∧
      run scene nested pc stack sink = ⟨sink, .error failure⟩

theorem Computes.bind {result : Except Problem α} {f : α → Except Problem β} {middle : Nat}
    {push : α → List Value} {pushed : β → List Value}
    (first : Computes scene nested pc stack sink middle push result)
    (rest : ∀ a, result = .ok a → Computes scene nested middle (push a) sink stop pushed (f a)) :
    Computes scene nested pc stack sink stop pushed (result >>= f) := by
  cases result with
  | error problem => exact first
  | ok a =>
    have run_first : run scene nested pc stack sink = run scene nested middle (push a) sink := first
    have run_rest := rest a rfl
    unfold Computes at run_rest ⊢
    rw [run_first]
    exact run_rest

/-- The way to the code of a computation does not matter. -/
theorem Computes.behind {result : Except Problem α} {push : α → List Value}
    (same : run scene nested pc stack sink = run scene nested target after sink)
    (rest : Computes scene nested target after sink stop push result) :
    Computes scene nested pc stack sink stop push result := by
  unfold Computes
  rw [same]
  exact rest

/-- The effect of an instruction that leaves what it computes on the stack. -/
def Effect.ofResult (scene : Scene) (pc : Nat) (sink : Sink) (push : α → List Value) : Except Problem α → Effect
  | .ok a => .goto (pc + 1) (push a) sink
  | .error problem => .failed sink (located scene pc (.ofProblem problem))

theorem Computes.step {result : Except Problem α} {push : α → List Value}
    (found : scene.template.listing.get? pc = some instruction)
    (effect : execute scene nested pc stack sink instruction = .ofResult scene pc sink push result) :
    Computes scene nested pc stack sink (pc + 1) push result := by
  cases result with
  | ok a => exact run_goto found effect (Nat.lt_succ_self pc)
  | error problem => exact ⟨_, located_alike scene pc _, run_failed found effect⟩

theorem ofResult_tested (test : Ordering → Bool) (a b : Value) :
    Effect.ofResult scene pc sink (· :: stack) (Value.tested test a b) =
      match ordering a b with
      | .ok order => .goto (pc + 1) (.bool (holds test order) :: stack) sink
      | .error problem => .failed sink (located scene pc (.ofProblem problem)) := by
  unfold Value.tested
  cases ordering a b <;> rfl

/-- Two operands one after the other, and an instruction that takes both. -/
theorem Computes.operands {first second : Expr} {last : Instruction} {f : Value → Value → Except Problem Value}
    (holds : scene.template.listing.Holds pc (first.code ++ second.code ++ [last]))
    (left : ∀ {pc stack}, scene.template.listing.Holds pc first.code →
      Computes scene nested pc stack sink (pc + first.code.length) (· :: stack)
        (first.evaluate scene.env scene.vars))
    (right : ∀ {pc stack}, scene.template.listing.Holds pc second.code →
      Computes scene nested pc stack sink (pc + second.code.length) (· :: stack)
        (second.evaluate scene.env scene.vars))
    (effect : ∀ a b pc, execute scene nested pc (b :: a :: stack) sink (last.retarget (pc + 1 + ·)) =
      .ofResult scene pc sink (· :: stack) (f a b)) :
    Computes scene nested pc stack sink (pc + (first.code ++ second.code ++ [last]).length) (· :: stack) (do
      let a ← first.evaluate scene.env scene.vars
      let b ← second.evaluate scene.env scene.vars
      f a b) := by
  obtain ⟨operands, last⟩ := Listing.holds_append.mp holds
  have found := (Listing.holds_cons.mp last).1
  obtain ⟨holds_first, holds_second⟩ := Listing.holds_append.mp operands
  rw [List.length_append, ← Nat.add_assoc]
  rw [List.length_append, ← Nat.add_assoc] at found ⊢
  exact (left holds_first).bind fun a _ => (right holds_second).bind fun b _ => .step found (effect a b _)

/-- A jump behind the left operand, which stays if it decides. -/
theorem Computes.shortCircuit {first second : Expr} {jump : Instruction} (decides : Value → Bool)
    (holds : scene.template.listing.Holds pc (first.code ++ jump :: second.code))
    (left : ∀ {pc stack}, scene.template.listing.Holds pc first.code →
      Computes scene nested pc stack sink (pc + first.code.length) (· :: stack)
        (first.evaluate scene.env scene.vars))
    (right : ∀ {pc stack}, scene.template.listing.Holds pc second.code →
      Computes scene nested pc stack sink (pc + second.code.length) (· :: stack)
        (second.evaluate scene.env scene.vars))
    (effect : ∀ v pc, execute scene nested pc (v :: stack) sink (jump.retarget (pc + 1 + ·)) =
      if decides v then .goto (pc + 1 + second.code.length) (v :: stack) sink else .goto (pc + 1) stack sink) :
    Computes scene nested pc stack sink (pc + (first.code ++ jump :: second.code).length) (· :: stack) (do
      let v ← first.evaluate scene.env scene.vars
      if decides v then .ok v else second.evaluate scene.env scene.vars) := by
  obtain ⟨holds_first, rest⟩ := Listing.holds_append.mp holds
  obtain ⟨found, holds_second⟩ := Listing.holds_cons.mp rest
  have stop : pc + (first.code ++ jump :: second.code).length =
      pc + first.code.length + 1 + second.code.length := by
    simp only [List.length_append, List.length_cons]
    omega
  rw [stop]
  refine (left holds_first).bind fun v _ => ?_
  have effect := effect v (pc + first.code.length)
  by_cases decided : decides v
  · rw [if_pos decided] at effect ⊢
    exact run_goto found effect (by omega)
  · rw [if_neg decided] at effect ⊢
    exact .behind (run_goto found effect (by omega)) (right holds_second)

/-- Code of an expression leaves the value of the expression above the stack. -/
theorem expr_computes (expr : Expr) (holds : scene.template.listing.Holds pc expr.code) :
    Computes scene nested pc stack sink (pc + expr.code.length) (· :: stack)
      (expr.evaluate scene.env scene.vars) := by
  induction expr generalizing pc stack with
  | var name span =>
    have found := (Listing.holds_cons.mp holds).1
    exact .step found rfl
  | const value span =>
    have found := (Listing.holds_cons.mp holds).1
    exact .step found rfl
  | member of name span ih =>
    obtain ⟨inner, last⟩ := Listing.holds_append.mp holds
    have found := (Listing.holds_cons.mp last).1
    rw [Expr.code, List.length_append, ← Nat.add_assoc]
    exact (ih inner).bind fun v _ => .step found rfl
  | not operand span ih =>
    obtain ⟨inner, last⟩ := Listing.holds_append.mp holds
    have found := (Listing.holds_cons.mp last).1
    rw [Expr.code, List.length_append, ← Nat.add_assoc]
    exact (ih inner).bind fun v _ => .step found rfl
  | filter name operand argument span ih =>
    obtain ⟨inner, last⟩ := Listing.holds_append.mp holds
    have found := (Listing.holds_cons.mp last).1
    rw [Expr.code, List.length_append, ← Nat.add_assoc]
    refine (ih inner).bind fun v _ => .step found ?_
    by_cases reserved : name = defaultFilter
    · simp only [reserved, if_true]
      rfl
    · simp only [if_neg reserved]
      rfl
  | binary op left right span ihl ihr =>
    cases op with
    | eq => exact .operands holds ihl ihr fun _ _ _ => rfl
    | ne => exact .operands holds ihl ihr fun _ _ _ => rfl
    | lt => exact .operands holds ihl ihr fun _ _ _ => (ofResult_tested ..).symm
    | lte => exact .operands holds ihl ihr fun _ _ _ => (ofResult_tested ..).symm
    | gt => exact .operands holds ihl ihr fun _ _ _ => (ofResult_tested ..).symm
    | gte => exact .operands holds ihl ihr fun _ _ _ => (ofResult_tested ..).symm
    | and =>
      rw [Expr.evaluate_and]
      refine .shortCircuit (fun v => !v.isTrue) holds ihl ihr fun v _ => ?_
      cases truth : v.isTrue <;> simp [execute, Instruction.retarget, truth]
    | or => exact .shortCircuit Value.isTrue holds ihl ihr fun _ _ => rfl

/-- A stack with names and their values on it, the last ones on top. -/
def pushPairs (stack : List Value) (bound : List (String × Value)) : List Value :=
  bound.foldl (fun stack (key, v) => v :: .str key :: stack) stack

theorem popPairs_pushPairs (bound : List (String × Value)) :
    popPairs bound.length (pushPairs stack bound) = some (bound.map fun (key, v) => (.str key, v), stack) := by
  induction bound using List.reverseRecOn with
  | nil => rfl
  | append_singleton bound last ih =>
    simp only [pushPairs] at ih
    simp [pushPairs, List.foldl_append, popPairs, ih]

theorem mapOfPairs_eq (bound : List (String × Value)) (fields : Fields Value) :
    mapOfPairs fields (bound.map fun (key, v) => (.str key, v)) = .ok (fields.insertAll bound) := by
  induction bound generalizing fields with
  | nil => rfl
  | cons first rest ih =>
    rw [List.map_cons, mapOfPairs, ih]
    rfl

theorem length_evaluateBindings {env : Environment} {vars : Value} {bindings : List (String × Expr)}
    {bound : List (String × Value)} (evaluated : Expr.evaluateBindings env vars bindings = .ok bound) :
    bound.length = bindings.length := by
  induction bindings generalizing bound with
  | nil =>
    obtain rfl := Except.ok.inj evaluated
    rfl
  | cons binding rest ih =>
    obtain ⟨v, -, evaluated⟩ := bind_eq_ok.mp evaluated
    obtain ⟨others, evaluatedRest, same⟩ := bind_eq_ok.mp evaluated
    obtain rfl := Except.ok.inj same
    rw [List.length_cons, List.length_cons, ih evaluatedRest]

/-- Code of bindings leaves their names and values above the stack. -/
theorem bindings_compute (bindings : List (String × Expr))
    (holds : scene.template.listing.Holds pc (Filled.bindingsCode bindings)) :
    Computes scene nested pc stack sink (pc + (Filled.bindingsCode bindings).length) (pushPairs stack)
      (Expr.evaluateBindings scene.env scene.vars bindings) := by
  induction bindings generalizing pc stack with
  | nil => rfl
  | cons binding rest ih =>
    obtain ⟨key, path⟩ := binding
    rw [Filled.bindingsCode] at holds ⊢
    obtain ⟨found, holds⟩ := Listing.holds_cons.mp holds
    obtain ⟨holds_path, holds_rest⟩ := Listing.holds_append.mp holds
    have loaded : run scene nested pc stack sink = run scene nested (pc + 1) (.str key :: stack) sink :=
      run_goto found rfl (Nat.lt_succ_self pc)
    have stop : pc + (Instruction.load (.str key) :: path.code ++ Filled.bindingsCode rest).length =
        pc + 1 + path.code.length + (Filled.bindingsCode rest).length := by
      simp only [List.length_append, List.length_cons]
      omega
    rw [stop]
    refine .behind loaded ((expr_computes path holds_path).bind fun v _ => ?_)
    have others : Computes scene nested _ (v :: .str key :: stack) sink _ (pushPairs (v :: .str key :: stack))
        (Expr.evaluateBindings scene.env scene.vars rest) := ih holds_rest
    exact others.bind fun _ _ => rfl

/-- The map of the bindings; of values with one name the last one is in it. -/
theorem map_computes (bindings : List (String × Expr)) {code : List Instruction}
    (same : code = Filled.bindingsCode bindings ++ [.buildMap bindings.length])
    (holds : scene.template.listing.Holds pc code) :
    Computes scene nested pc stack sink (pc + code.length)
      (fun bound => .map (Fields.insertAll [] bound) :: stack)
      (Expr.evaluateBindings scene.env scene.vars bindings) := by
  subst same
  obtain ⟨holds_bindings, last⟩ := Listing.holds_append.mp holds
  have found := (Listing.holds_cons.mp last).1
  have computed : Computes scene nested pc stack sink _ (pushPairs stack) _ := bindings_compute bindings holds_bindings
  rw [List.length_append, ← Nat.add_assoc]
  cases evaluated : Expr.evaluateBindings scene.env scene.vars bindings with
  | error problem =>
    rw [evaluated] at computed
    exact computed
  | ok bound =>
    rw [evaluated] at computed
    refine .behind computed (.step found ?_)
    simp only [execute, Instruction.retarget]
    rw [← length_evaluateBindings evaluated, popPairs_pushPairs]
    simp only [mapOfPairs_eq]
    rfl

end Machine

end TextTemplate
