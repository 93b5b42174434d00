import TextTemplate.Proofs.Code.Correctness
import TextTemplate.Proofs.Code.Marks

/-!
Where instructions come from. Generated code stands in a listing with its origins, and code of an
expression that fails names the origin of the code, whichever of its instructions fails.
-/
namespace TextTemplate

namespace Listing

variable {listing : Listing} {instruction : Instruction} {origin : Origin} {index start : Nat} {code rest : List Located}

theorem ofCode_eq_ofAdditions (code : List Located) :
    ofCode code = ofAdditions (code.map fun located => .addAt located.1 located.2) := by
  rw [ofCode, ofAdditions, List.foldl_map]
  rfl

theorem origin?_ofCode {located : Located} (found : code[index]? = some located) :
    (ofCode code).origin? index = some located.2 := by
  have given : ((code.map fun located => Addition.addAt located.1 located.2).take (index + 1)).filterMap (·.origin?) =
      (code.take (index + 1)).map Prod.snd := by
    rw [← List.map_take, List.filterMap_map]
    exact congrFun List.filterMap_eq_map' _
  rw [ofCode_eq_ofAdditions, origin?_ofAdditions, lastOrigin?, given, List.getLast?_map, List.getLast?_take,
    if_neg (Nat.succ_ne_zero index), Nat.add_sub_cancel, found]
  rfl

/-- The listing has the code from the index `start` on, and the origins that the code has. -/
structure Stands (listing : Listing) (start : Nat) (code : List Located) : Prop where
  holds : listing.Holds start (code.map Prod.fst)
  origins : ∀ index located, code[index]? = some located → listing.origin? (start + index) = some located.2

theorem stands_append :
    listing.Stands start (code ++ rest) ↔ listing.Stands start code ∧ listing.Stands (start + code.length) rest := by
  constructor
  · rintro ⟨holds, origins⟩
    rw [List.map_append, holds_append, List.length_map] at holds
    refine ⟨⟨holds.1, fun index located found => ?_⟩, holds.2, fun index located found => ?_⟩
    · have inside := (List.getElem?_eq_some_iff.mp found).1
      exact origins index located (by rwa [List.getElem?_append_left inside])
    · rw [Nat.add_assoc]
      refine origins (code.length + index) located ?_
      rwa [List.getElem?_append_right (Nat.le_add_right _ _), Nat.add_sub_cancel_left]
  · rintro ⟨first, second⟩
    refine ⟨?_, fun index located found => ?_⟩
    · rw [List.map_append, holds_append, List.length_map]
      exact ⟨first.holds, second.holds⟩
    rcases Nat.lt_or_ge index code.length with inside | behind
    · rw [List.getElem?_append_left inside] at found
      exact first.origins index located found
    · rw [List.getElem?_append_right behind] at found
      have there := second.origins _ located found
      rwa [Nat.add_assoc, Nat.add_sub_cancel' behind] at there

theorem Stands.nil : listing.Stands start [] :=
  ⟨holds_nil, fun _ _ found => by simp at found⟩

theorem Stands.first (stands : listing.Stands start ((instruction, origin) :: rest)) :
    listing.get? start = some (instruction.retarget (start + 1 + ·)) ∧ listing.origin? start = some origin :=
  ⟨(holds_cons.mp stands.holds).1, stands.origins 0 _ rfl⟩

theorem Stands.behind (stands : listing.Stands start ((instruction, origin) :: rest)) :
    listing.Stands (start + 1) rest :=
  (stands_append.mp (show listing.Stands start ([(instruction, origin)] ++ rest) from stands)).2

theorem stands_ofStatements (statements : List Filled) :
    (ofStatements statements).Stands 0 (Filled.codeAll none statements) := by
  refine ⟨holds_ofStatements statements, fun index located found => ?_⟩
  rw [Nat.zero_add, ofStatements]
  have stands : (withTargets (Filled.codeAll none statements))[index]? =
      some (located.1.retarget (index + 1 + ·), located.2) := by
    rw [withTargets, List.getElem?_mapIdx, found]
    rfl
  have there := origin?_ofCode stands
  exact there

end Listing

/-- A failure with the place of its origin, unless it names one; the source is that of the template whose
code runs, and is not shown for code of a section. -/
def Scene.report (scene : Scene) (origin : Origin) (failure : Failure) : Failure :=
  let fault :=
    if failure.fault.place.isSome then failure.fault
    else
      let fault := failure.fault.placedAt ⟨origin.template.getD scene.template.name, origin.line⟩
      if origin.template.isNone then fault.withSource scene.template.source else fault
  { failure with
    fault := if fault.kind = .executionError then fault.withListing scene.template.form else fault }

theorem Fault.listed (fault : Fault) (form : String) :
    ∃ listing, (if fault.kind = .executionError then fault.withListing form else fault) = { fault with listing } := by
  unfold withListing
  split
  · split
    · exact ⟨fault.listing, rfl⟩
    · exact ⟨some form, rfl⟩
  · exact ⟨fault.listing, rfl⟩

namespace Scene

variable {scene : Scene} {origin : Origin} {failure : Failure}

/-- A failure that names a place keeps it, and its source. -/
theorem report_placed {place : Place} (placed : failure.fault.place = some place) :
    ∃ listing, scene.report origin failure = ⟨{ failure.fault with listing }, failure.causes⟩ := by
  obtain ⟨listing, listed⟩ := failure.fault.listed scene.template.form
  refine ⟨listing, ?_⟩
  unfold report
  simp only [placed, Option.isSome_some, if_true, listed]

/-- A failure that names no place gets that of the origin, and a source unless this is a section. -/
theorem report_unplaced (unplaced : failure.fault.place = none) :
    ∃ listing, scene.report origin failure =
      ⟨{ problem := failure.fault.problem
         place := some ⟨origin.template.getD scene.template.name, origin.line⟩
         source := failure.fault.source.or (if origin.template.isNone then some scene.template.source else none)
         listing }, failure.causes⟩ := by
  obtain ⟨⟨problem, place, source, listing⟩, causes⟩ := failure
  obtain rfl : place = none := unplaced
  let fault : Fault :=
    { problem
      place := some ⟨origin.template.getD scene.template.name, origin.line⟩
      source := source.or (if origin.template.isNone then some scene.template.source else none)
      listing }
  obtain ⟨shown, listed⟩ := fault.listed scene.template.form
  refine ⟨shown, ?_⟩
  have attached : scene.report origin ⟨{ problem, source, listing }, causes⟩ =
      ⟨if fault.kind = .executionError then fault.withListing scene.template.form else fault, causes⟩ := by
    obtain ⟨line, template⟩ := origin
    cases template <;> cases source <;> rfl
  rw [attached, listed]

end Scene

theorem locate_append (origin : Origin) (first rest : List Instruction) :
    locate origin (first ++ rest) = locate origin first ++ locate origin rest :=
  List.map_append

theorem length_locate (origin : Origin) (code : List Instruction) : (locate origin code).length = code.length :=
  List.length_map _

namespace Machine

variable {scene : Scene} {nested : Nested} {pc : Nat} {stack : List Value} {sink : Sink} {origin : Origin}
  {failure : Failure} {problem : Problem} {v : Value}

theorem located_eq_report (there : scene.template.listing.origin? pc = some origin) :
    located scene pc failure = scene.report origin failure := by
  unfold located Scene.report Listing.line? Listing.template?
  simp only [there]
  rfl

theorem expr_runs {expr : Expr} (evaluated : expr.evaluate scene.env scene.vars = .ok v)
    (stands : scene.template.listing.Stands pc (locate origin expr.code)) :
    run scene nested pc stack sink = run scene nested (pc + expr.code.length) (v :: stack) sink := by
  have holds := stands.holds
  rw [locate_fst] at holds
  have computes : Computes scene nested pc stack sink _ (· :: stack) _ := expr_computes expr holds
  rw [evaluated] at computes
  exact computes

/-- The run ends with the problem, at the origin. -/
def Breaks (scene : Scene) (nested : Nested) (pc : Nat) (stack : List Value) (sink : Sink) (origin : Origin)
    (problem : Problem) : Prop :=
  run scene nested pc stack sink = ⟨sink, .error (scene.report origin (.ofProblem problem))⟩

theorem Breaks.behind {target : Nat} {after : List Value}
    (same : run scene nested pc stack sink = run scene nested target after sink)
    (breaks : Breaks scene nested target after sink origin problem) : Breaks scene nested pc stack sink origin problem :=
  same.trans breaks

theorem Breaks.step {instruction : Instruction} (found : scene.template.listing.get? pc = some instruction)
    (there : scene.template.listing.origin? pc = some origin)
    (effect : execute scene nested pc stack sink instruction = .failed sink (located scene pc (.ofProblem problem))) :
    Breaks scene nested pc stack sink origin problem := by
  rw [Breaks, run_failed found effect, located_eq_report there]

/-- An operand fails, or the instruction that takes both does. -/
theorem operands_break {first second : Expr} {last : Instruction} {f : Value → Value → Except Problem Value}
    (left : ∀ {pc stack problem}, first.evaluate scene.env scene.vars = .error problem →
      scene.template.listing.Stands pc (locate origin first.code) → Breaks scene nested pc stack sink origin problem)
    (right : ∀ {pc stack problem}, second.evaluate scene.env scene.vars = .error problem →
      scene.template.listing.Stands pc (locate origin second.code) → Breaks scene nested pc stack sink origin problem)
    (fails : (do
      let a ← first.evaluate scene.env scene.vars
      let b ← second.evaluate scene.env scene.vars
      f a b) = .error problem)
    (stands : scene.template.listing.Stands pc (locate origin (first.code ++ second.code ++ [last])))
    (effect : ∀ a b pc, execute scene nested pc (b :: a :: stack) sink (last.retarget (pc + 1 + ·)) =
      .ofResult scene pc sink (· :: stack) (f a b)) :
    Breaks scene nested pc stack sink origin problem := by
  rw [locate_append, locate_append, Listing.stands_append, Listing.stands_append, List.length_append, length_locate,
    length_locate, ← Nat.add_assoc] at stands
  obtain ⟨⟨standsFirst, standsSecond⟩, standsLast⟩ := stands
  rcases bind_eq_error.mp fails with one | ⟨a, one, fails⟩
  · exact left one standsFirst
  refine .behind (expr_runs one standsFirst) ?_
  rcases bind_eq_error.mp fails with two | ⟨b, two, fails⟩
  · exact right two standsSecond
  refine .behind (expr_runs two standsSecond) (.step standsLast.first.1 standsLast.first.2 ?_)
  rw [effect, fails]
  rfl

/-- The left operand fails, or it does not decide and the right one fails. -/
theorem shortCircuit_breaks {first second : Expr} {jump : Instruction} (decides : Value → Bool)
    (left : ∀ {pc stack problem}, first.evaluate scene.env scene.vars = .error problem →
      scene.template.listing.Stands pc (locate origin first.code) → Breaks scene nested pc stack sink origin problem)
    (right : ∀ {pc stack problem}, second.evaluate scene.env scene.vars = .error problem →
      scene.template.listing.Stands pc (locate origin second.code) → Breaks scene nested pc stack sink origin problem)
    (fails : (do
      let v ← first.evaluate scene.env scene.vars
      if decides v then .ok v else second.evaluate scene.env scene.vars) = .error problem)
    (stands : scene.template.listing.Stands pc (locate origin (first.code ++ jump :: second.code)))
    (effect : ∀ v pc, decides v = false →
      execute scene nested pc (v :: stack) sink (jump.retarget (pc + 1 + ·)) = .goto (pc + 1) stack sink) :
    Breaks scene nested pc stack sink origin problem := by
  rw [locate_append, Listing.stands_append, length_locate] at stands
  obtain ⟨standsFirst, standsRest⟩ := stands
  have standsRest : scene.template.listing.Stands _ ((jump, origin) :: locate origin second.code) := standsRest
  rcases bind_eq_error.mp fails with one | ⟨v, one, fails⟩
  · exact left one standsFirst
  split at fails
  · cases fails
  · rename_i undecided
    refine .behind (expr_runs one standsFirst) ?_
    refine .behind (run_goto standsRest.first.1 (effect v _ (by simpa using undecided)) (Nat.lt_succ_self _)) ?_
    exact right fails standsRest.behind

/-- Code of an expression that fails names its origin. -/
theorem expr_breaks (expr : Expr) (fails : expr.evaluate scene.env scene.vars = .error problem)
    (stands : scene.template.listing.Stands pc (locate origin expr.code)) :
    Breaks scene nested pc stack sink origin problem := by
  induction expr generalizing pc stack problem with
  | var name span => cases fails
  | const value span => cases fails
  | member of name span ih =>
    rw [Expr.code, locate_append, Listing.stands_append] at stands
    rcases bind_eq_error.mp fails with inner | ⟨v, -, last⟩
    · exact ih inner stands.1
    · cases last
  | not operand span ih =>
    rw [Expr.code, locate_append, Listing.stands_append] at stands
    rcases bind_eq_error.mp fails with inner | ⟨v, -, last⟩
    · exact ih inner stands.1
    · cases last
  | filter name operand argument span ih =>
    rw [Expr.code, locate_append, Listing.stands_append] at stands
    rcases bind_eq_error.mp fails with inner | ⟨v, -, last⟩
    · exact ih inner stands.1
    · cases last
  | binary op left right span ihl ihr =>
    cases op with
    | eq => exact operands_break ihl ihr fails stands fun _ _ _ => rfl
    | ne => exact operands_break ihl ihr fails stands fun _ _ _ => rfl
    | lt => exact operands_break ihl ihr fails stands fun _ _ _ => (ofResult_tested ..).symm
    | lte => exact operands_break ihl ihr fails stands fun _ _ _ => (ofResult_tested ..).symm
    | gt => exact operands_break ihl ihr fails stands fun _ _ _ => (ofResult_tested ..).symm
    | gte => exact operands_break ihl ihr fails stands fun _ _ _ => (ofResult_tested ..).symm
    | and =>
      rw [Expr.evaluate_and] at fails
      refine shortCircuit_breaks (fun v => !v.isTrue) ihl ihr fails stands fun v _ undecided => ?_
      have goesOn : v.isTrue = true := by simpa using undecided
      simp [execute, Instruction.retarget, goesOn]
    | or =>
      refine shortCircuit_breaks Value.isTrue ihl ihr fails stands fun v _ undecided => ?_
      simp [execute, Instruction.retarget, undecided]

/-- Bindings fail at a path. -/
theorem bindings_break (bindings : List (String × Expr))
    (fails : Expr.evaluateBindings scene.env scene.vars bindings = .error problem)
    (stands : scene.template.listing.Stands pc (locate origin (Filled.bindingsCode bindings))) :
    Breaks scene nested pc stack sink origin problem := by
  induction bindings generalizing pc stack with
  | nil => cases fails
  | cons binding rest ih =>
    obtain ⟨key, path⟩ := binding
    have stands : scene.template.listing.Stands pc
        ((.load (.str key), origin) :: locate origin (path.code ++ Filled.bindingsCode rest)) := stands
    have inside := stands.behind
    rw [locate_append, Listing.stands_append, length_locate] at inside
    refine .behind (run_goto stands.first.1 rfl (Nat.lt_succ_self pc)) ?_
    rcases bind_eq_error.mp fails with first | ⟨v, one, others⟩
    · exact expr_breaks path first inside.1
    refine .behind (expr_runs one inside.1) ?_
    rcases bind_eq_error.mp others with later | ⟨bound, -, last⟩
    · exact ih later inside.2
    · cases last

theorem map_runs {bindings : List (String × Expr)} {bound : List (String × Value)}
    (evaluated : Expr.evaluateBindings scene.env scene.vars bindings = .ok bound)
    (stands : scene.template.listing.Stands pc
      (locate origin (Filled.bindingsCode bindings ++ [.buildMap bindings.length]))) :
    run scene nested pc stack sink =
      run scene nested (pc + (Filled.bindingsCode bindings ++ [Instruction.buildMap bindings.length]).length)
        (.map (Fields.insertAll [] bound) :: stack) sink := by
  have holds := stands.holds
  rw [locate_fst] at holds
  have computes : Computes scene nested pc stack sink _ (fun bound => .map (Fields.insertAll [] bound) :: stack) _ :=
    map_computes bindings rfl holds
  rw [evaluated] at computes
  exact computes

theorem map_breaks (bindings : List (String × Expr))
    (fails : Expr.evaluateBindings scene.env scene.vars bindings = .error problem)
    (stands : scene.template.listing.Stands pc
      (locate origin (Filled.bindingsCode bindings ++ [.buildMap bindings.length]))) :
    Breaks scene nested pc stack sink origin problem := by
  rw [locate_append, Listing.stands_append] at stands
  exact bindings_break bindings fails stands.1

end Machine

end TextTemplate
