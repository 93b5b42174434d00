import TextTemplate.Code.Emitter
import TextTemplate.Proofs.Code.Branches
import TextTemplate.Proofs.Code.Effects
import TextTemplate.Proofs.Code.Marks
import TextTemplate.Proofs.Code.Placement

/-!
Code that is emitted in one pass is the code with jumps by distance. A jump is added with a placeholder
and gets its target when its block ends; what was emitted in between does not notice. Only a
conditional without branches would leave its block open, and no tag is read as one.
-/
namespace TextTemplate

theorem Instruction.retarget_plain {instruction : Instruction} (plain : instruction.target? = none) (f : Nat → Nat) :
    instruction.retarget f = instruction := by
  cases instruction <;> first | rfl | cases plain

namespace Listing

variable {listing : Listing} {index : Nat} {f : Instruction → Instruction} {instruction : Instruction}
  {origin : Origin}

/-- Adds code with jumps by distance behind the instructions that are there. -/
def place (listing : Listing) (code : List Located) : Listing :=
  code.foldl (fun listing (instruction, origin) =>
    listing.addAt (instruction.retarget (listing.size + 1 + ·)) origin) listing

@[simp]
theorem place_nil : listing.place [] = listing := rfl

@[simp]
theorem place_cons (code : List Located) :
    listing.place ((instruction, origin) :: code) =
      (listing.addAt (instruction.retarget (listing.size + 1 + ·)) origin).place code := rfl

@[simp]
theorem place_append (first rest : List Located) : listing.place (first ++ rest) = (listing.place first).place rest :=
  List.foldl_append

@[simp]
theorem size_place (code : List Located) : (listing.place code).size = listing.size + code.length := by
  induction code generalizing listing with
  | nil => rfl
  | cons located code ih =>
    rw [place_cons, ih, size_addAt, List.length_cons]
    omega

theorem place_eq_foldl (listing : Listing) (code : List Located) :
    listing.place code = (code.mapIdx fun index (instruction, origin) =>
      (instruction.retarget (listing.size + index + 1 + ·), origin)).foldl
        (fun listing (instruction, origin) => listing.addAt instruction origin) listing := by
  induction code generalizing listing with
  | nil => rfl
  | cons located code ih =>
    rw [place_cons, ih, List.mapIdx_cons, List.foldl_cons, size_addAt]
    simp only [Nat.add_zero, Nat.add_assoc, Nat.add_comm 1]

theorem place_empty (code : List Located) : ({} : Listing).place code = ofCode (withTargets code) := by
  rw [place_eq_foldl, ofCode, withTargets]
  simp [size]

theorem size_patch : (listing.patch index f).size = listing.size := by
  simp [patch, size]

theorem patch_addAt (inside : index < listing.size) :
    (listing.addAt instruction origin).patch index f = (listing.patch index f).addAt instruction origin := by
  have pushed : (listing.instructions.push instruction).modify index f =
      (listing.instructions.modify index f).push instruction := by
    apply Array.ext_getElem?
    intro other
    simp only [Array.getElem?_modify, Array.getElem?_push, Array.size_modify]
    unfold size at inside
    grind
  simp [patch, addAt, size, pushed]

theorem patch_addAt_last :
    (listing.addAt instruction origin).patch listing.size f = listing.addAt (f instruction) origin := by
  have pushed : (listing.instructions.push instruction).modify listing.instructions.size f =
      listing.instructions.push (f instruction) := by
    apply Array.ext_getElem?
    intro other
    simp only [Array.getElem?_modify, Array.getElem?_push]
    grind
  simp [patch, addAt, size, pushed]

theorem patch_place (inside : index < listing.size) (code : List Located) :
    (listing.place code).patch index f = (listing.patch index f).place code := by
  induction code generalizing listing with
  | nil => rfl
  | cons located code ih =>
    rw [place_cons, place_cons, ih (by rw [size_addAt]; omega), patch_addAt inside, size_patch]

/-- An instruction can be changed when code stands behind it as if it had been changed before. -/
theorem patch_behind (last : index = listing.size) (code : List Located) :
    ((listing.addAt instruction origin).place code).patch index f =
      (listing.addAt (f instruction) origin).place code := by
  rw [last, patch_place (by rw [size_addAt]; omega), patch_addAt_last]

end Listing

namespace Filled

/-- What stands between the body of a branch and the branches behind it: a jump over them. -/
def leave (template : Option String) (line : Nat) (otherwise : Option (List Located))
    (rest : List (Expr × List Filled)) : List Located :=
  if rest.isEmpty && otherwise.isNone then []
  else [(.jump (branchesCode template otherwise rest).length, ⟨line, template⟩)]

theorem branchesCode_cons (template : Option String) (otherwise : Option (List Located)) (condition : Expr)
    (body : List Filled) (rest : List (Expr × List Filled)) :
    let origin : Origin := ⟨condition.span.start.line, template⟩
    let leave := leave template (lastLineAll condition.span.start.line body) otherwise rest
    branchesCode template otherwise ((condition, body) :: rest) =
      locate origin condition.code ++
        ((.jumpIfFalse ((codeAll template body).length + leave.length), origin) :: codeAll template body ++
          (leave ++ branchesCode template otherwise rest)) := by
  intro origin leave
  rw [branchesCode]
  unfold leave Filled.leave
  split
  · rename_i last
    obtain ⟨rfl, rfl⟩ : rest = [] ∧ otherwise = none := by simpa using last
    simp [branchesCode, origin]
  · simp [origin]

end Filled

namespace Emitter

/-- Where what is added comes from. -/
def origin (emitter : Emitter) : Origin :=
  ⟨emitter.line, emitter.template⟩

variable {emitter : Emitter} {instruction : Instruction} {mark : Origin}

/-- The emitter behind some code. -/
def emit (emitter : Emitter) (code : List Located) : Emitter :=
  { emitter with listing := emitter.listing.place code }

@[simp]
theorem emit_emit (first rest : List Located) : (emitter.emit first).emit rest = emitter.emit (first ++ rest) := by
  simp [emit]

@[simp]
theorem origin_emit (code : List Located) : (emitter.emit code).origin = emitter.origin := rfl

/-- The line does not matter to code that says where it comes from. -/
@[simp]
theorem atLine_emit (line : Nat) (code : List Located) :
    (emitter.atLine line).emit code = (emitter.emit code).atLine line := rfl

theorem atLine_endIf (line : Nat) : (emitter.atLine line).endIf = emitter.endIf.atLine line := by
  unfold endIf endCondition next atLine
  dsimp only
  split <;> rfl

theorem add_eq_emit (plain : instruction.target? = none) :
    emitter.add instruction = emitter.emit (locate emitter.origin [instruction]) := by
  simp [add, emit, locate, origin, Instruction.retarget_plain plain]

/-- Instructions that jump to the target they are given. -/
structure Jumps (jump : Nat → Instruction) (setTarget : Nat → Instruction → Instruction) : Prop where
  retarget (f : Nat → Nat) (target : Nat) : (jump target).retarget f = jump (f target)
  patched (old target : Nat) : setTarget target (jump old) = jump target

theorem endShortCircuit_emit {jump : Nat → Instruction} (jumps : Jumps jump Instruction.withOperandTarget)
    (left right : List Located) :
    (((emitter.startShortCircuit.emit left).shortCircuit jump).emit right).endShortCircuit =
      emitter.emit (left ++ (jump right.length, emitter.origin) :: right) := by
  simp [startShortCircuit, shortCircuit, endShortCircuit, emit, add, next, origin, Listing.patch_behind,
    jumps.retarget, jumps.patched]

theorem origin_shortCircuit (jump : Nat → Instruction) : (emitter.shortCircuit jump).origin = emitter.origin := by
  unfold shortCircuit
  dsimp only
  split <;> rfl

theorem jumps_jumpIfFalseOrPop : Jumps .jumpIfFalseOrPop Instruction.withOperandTarget :=
  ⟨fun _ _ => rfl, fun _ _ => rfl⟩

theorem jumps_jumpIfTrueOrPop : Jumps .jumpIfTrueOrPop Instruction.withOperandTarget :=
  ⟨fun _ _ => rfl, fun _ _ => rfl⟩

theorem jumps_jump : Jumps .jump Instruction.withBranchTarget :=
  ⟨fun _ _ => rfl, fun _ _ => rfl⟩

theorem jumps_jumpIfFalse : Jumps .jumpIfFalse Instruction.withBranchTarget :=
  ⟨fun _ _ => rfl, fun _ _ => rfl⟩

@[simp]
theorem locate_append (mark : Origin) (first rest : List Instruction) :
    locate mark (first ++ rest) = locate mark first ++ locate mark rest := by
  simp [locate]

theorem emit_add (plain : instruction.target? = none) (code : List Instruction) :
    (emitter.emit (locate emitter.origin code)).add instruction =
      emitter.emit (locate emitter.origin (code ++ [instruction])) := by
  rw [add_eq_emit plain, emit_emit, origin_emit, locate_append]

theorem expr_eq_emit (emitter : Emitter) (e : Expr) :
    emitter.expr e = emitter.emit (locate emitter.origin e.code) := by
  induction e generalizing emitter with
  | var name span => exact add_eq_emit rfl
  | const value span => exact add_eq_emit rfl
  | member of name span ih => rw [expr, ih, emit_add rfl, Expr.code]
  | not operand span ih => rw [expr, ih, emit_add rfl, Expr.code]
  | filter name operand argument span ih =>
    have plain : (if name = defaultFilter then Instruction.applyDefault argument
        else .applyFilter name argument).target? = none := by split <;> rfl
    rw [expr, ih, emit_add plain, Expr.code]
  | binary op left right span first second =>
    have operands {last : Instruction} (plain : last.target? = none) :
        ((emitter.expr left).expr right).add last =
          emitter.emit (locate emitter.origin (left.code ++ right.code ++ [last])) := by
      rw [first, second, origin_emit, emit_emit, ← locate_append, emit_add plain]
    have shortCircuit {jump : Nat → Instruction} (jumps : Jumps jump Instruction.withOperandTarget) :
        (((emitter.startShortCircuit.expr left).shortCircuit jump).expr right).endShortCircuit =
          emitter.emit (locate emitter.origin (left.code ++ jump right.code.length :: right.code)) := by
      rw [first, second, endShortCircuit_emit jumps, origin_shortCircuit, origin_emit]
      simp [locate, startShortCircuit, origin]
    cases op with
    | and => exact shortCircuit jumps_jumpIfFalseOrPop
    | or => exact shortCircuit jumps_jumpIfTrueOrPop
    | eq | ne | lt | lte | gt | gte => exact operands rfl

theorem bindings_eq_emit (emitter : Emitter) (bound : List (String × Expr)) :
    emitter.bindings bound = emitter.emit (locate emitter.origin (Filled.bindingsCode bound)) := by
  induction bound generalizing emitter with
  | nil => rfl
  | cons binding rest ih =>
    obtain ⟨key, path⟩ := binding
    rw [bindings, ih, expr_eq_emit, add_eq_emit rfl]
    simp [Filled.bindingsCode, locate]

/-- The emitter behind some code in front of which a jump waits for its target. -/
def waiting (emitter : Emitter) (jump : Nat → Instruction) (mark : Origin) (code : List Located) : Emitter :=
  { emitter with
    listing := (emitter.listing.addAt (jump placeholder) mark).place code
    blocks := .branch emitter.next :: emitter.blocks }

theorem startIf_eq_waiting : emitter.startIf = emitter.waiting .jumpIfFalse emitter.origin [] := rfl

@[simp]
theorem waiting_emit (jump : Nat → Instruction) (code more : List Located) :
    (emitter.waiting jump mark code).emit more = emitter.waiting jump mark (code ++ more) := by
  simp [waiting, emit]

@[simp]
theorem atLine_waiting (jump : Nat → Instruction) (code : List Located) (line : Nat) :
    (emitter.atLine line).waiting jump mark code = (emitter.waiting jump mark code).atLine line := rfl

theorem waiting_endIf {jump : Nat → Instruction} (jumps : Jumps jump Instruction.withBranchTarget)
    (code : List Located) :
    (emitter.waiting jump mark code).endIf = emitter.emit ((jump code.length, mark) :: code) := by
  simp [waiting, endIf, endCondition, emit, next, Listing.patch_behind, jumps.retarget, jumps.patched]

theorem waiting_startElse (code : List Located) :
    (emitter.waiting .jumpIfFalse mark code).startElse =
      (emitter.emit ((.jumpIfFalse (code.length + 1), mark) :: code)).waiting .jump emitter.origin [] := by
  have patched (target : Nat) : ((((emitter.listing.addAt (.jumpIfFalse placeholder) mark).place code).addAt
      (.jump placeholder) emitter.origin).patch emitter.listing.size (·.withBranchTarget target)) =
        ((emitter.listing.addAt (.jumpIfFalse target) mark).place code).addAt (.jump placeholder) emitter.origin := by
    rw [Listing.patch_addAt (by simp only [Listing.size_place, Listing.size_addAt]; omega), Listing.patch_behind rfl]
    rfl
  unfold origin at patched
  simp [waiting, startElse, endCondition, emit, add, next, origin, patched, Instruction.retarget, Nat.add_assoc]

/-- The emitter does with some statements what their code says. -/
def Emits (all : List Filled) : Prop :=
  ∀ emitter : Emitter, emitter.statements all =
    (emitter.emit (Filled.codeAll emitter.template all)).atLine (Filled.lastLineAll emitter.line all)

theorem emits_of {all : List Filled} (each : ∀ statement ∈ all, ∀ emitter : Emitter,
    emitter.statement statement = (emitter.emit (statement.code emitter.template)).atLine statement.lastLine) :
    Emits all := by
  induction all with
  | nil => exact fun _ => rfl
  | cons first rest ih =>
    intro emitter
    obtain ⟨one, more⟩ := List.forall_mem_cons.mp each
    rw [statements, one, ih more, Filled.codeAll, ← emit_emit]
    rfl

theorem branch_eq_waiting {body : List Filled} (emits : Emits body) (emitter : Emitter) (condition : Expr) :
    let origin : Origin := ⟨condition.span.start.line, emitter.template⟩
    ((emitter.atLine condition.span.start.line).expr condition).startIf.statements body =
      ((emitter.emit (locate origin condition.code)).waiting .jumpIfFalse origin
        (Filled.codeAll emitter.template body)).atLine (Filled.lastLineAll condition.span.start.line body) := by
  intro origin
  rw [expr_eq_emit, startIf_eq_waiting, emits, waiting_emit]
  rfl

/-- From the body of a branch on, up to the end of the conditional. -/
theorem branches_eq_emit {rest : List (Expr × List Filled)} {otherwise : Option (List Filled)}
    (bodies : ∀ branch ∈ rest, Emits branch.2) (other : ∀ body ∈ otherwise, Emits body) (emitter : Emitter)
    (mark : Origin) (inner : List Located) :
    let others := Filled.otherwiseCode emitter.template otherwise
    let leave := Filled.leave emitter.template emitter.line others rest
    (((emitter.waiting .jumpIfFalse mark inner).branches false rest).otherwise otherwise).endIfs (rest.length + 1) =
      (emitter.emit ((.jumpIfFalse (inner.length + leave.length), mark) :: inner ++
        (leave ++ Filled.branchesCode emitter.template others rest))).atLine
          (Filled.lastLineOtherwise (Filled.lastLineBranches emitter.line rest) otherwise) := by
  intro others leave
  induction rest generalizing emitter mark inner with
  | nil =>
    cases otherwise with
    | none =>
      change (emitter.waiting .jumpIfFalse mark inner).endIf = _
      have alone : inner ++ (leave ++ Filled.branchesCode emitter.template others []) = inner := List.append_nil inner
      rw [waiting_endIf jumps_jumpIfFalse, List.cons_append, alone]
      rfl
    | some body =>
      change ((emitter.waiting .jumpIfFalse mark inner).startElse.statements body).endIf = _
      rw [waiting_startElse, other body rfl, atLine_endIf, waiting_emit, waiting_endIf jumps_jump, emit_emit]
      rfl
  | cons branch rest ih =>
    obtain ⟨condition, body⟩ := branch
    have bodies : Emits body ∧ ∀ branch ∈ rest, Emits branch.2 := List.forall_mem_cons.mp bodies
    change (((((((emitter.waiting .jumpIfFalse mark inner).startElse.atLine _).expr condition).startIf.statements
      body).branches false rest).otherwise otherwise).endIfs (rest.length + 1)).endIf = _
    rw [waiting_startElse, branch_eq_waiting bodies.1, ← atLine_waiting, ih bodies.2]
    have leaves : leave = [(.jump (Filled.branchesCode emitter.template others ((condition, body) :: rest)).length,
        emitter.origin)] := rfl
    rw [leaves, Filled.branchesCode_cons, atLine_endIf, atLine_emit, atLine_endIf, waiting_emit, waiting_emit,
      waiting_endIf jumps_jump, emit_emit]
    rfl

theorem statement_eq_emit {statement : Filled} (branched : statement.Branched) (emitter : Emitter) :
    emitter.statement statement = (emitter.emit (statement.code emitter.template)).atLine statement.lastLine := by
  induction branched generalizing emitter with
  | text raw line =>
    rw [Emitter.statement, add_eq_emit rfl]
    rfl
  | output value line =>
    rw [Emitter.statement, expr_eq_emit, emit_add rfl]
    rfl
  | @conditional branches otherwise line some _ _ bodies other =>
    cases branches with
    | nil => exact absurd rfl some
    | cons branch rest =>
      obtain ⟨condition, body⟩ := branch
      have first : Emits body := emits_of (bodies _ List.mem_cons_self)
      have bodies : ∀ branch ∈ rest, Emits branch.2 := fun branch found =>
        emits_of (bodies branch (List.mem_cons_of_mem _ found))
      have other : ∀ body ∈ otherwise, Emits body := fun body found => emits_of (other body found)
      change ((((((emitter.atLine line).atLine _).expr condition).startIf.statements body).branches false
        rest).otherwise otherwise).endIfs (rest.length + 1) = _
      rw [branch_eq_waiting first, ← atLine_waiting, branches_eq_emit bodies other, atLine_emit, emit_emit,
        Filled.code, Filled.branchesCode_cons]
      rfl
  | each item collection part line =>
    rw [Emitter.statement, expr_eq_emit, emit_add rfl]
    rfl
  | inclusion name line =>
    rw [Emitter.statement, add_eq_emit rfl]
    rfl
  | embedding name bound line =>
    rw [Emitter.statement, bindings_eq_emit, emit_add rfl, emit_add rfl, List.append_assoc]
    rfl
  | unfilled line => rfl
  | filled origin line _ bodies =>
    rw [Emitter.statement, emits_of bodies]
    rfl

theorem statements_eq_emit {all : List Filled} (branched : ∀ statement ∈ all, statement.Branched) : Emits all :=
  emits_of fun statement found => statement_eq_emit (branched statement found)

theorem generate_listing {all : List Filled} (branched : ∀ statement ∈ all, statement.Branched) :
    (generate all).listing = .ofStatements all ∧ (generate all).blocks = [] := by
  rw [generate, statements_eq_emit branched]
  exact ⟨Listing.place_empty _, rfl⟩

end Emitter

end TextTemplate
