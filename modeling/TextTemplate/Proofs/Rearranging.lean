import Mathlib.Data.List.Pairwise
import Mathlib.Data.String.Basic
import TextTemplate.Proofs.Bare
import TextTemplate.Proofs.Code.Placement
import TextTemplate.Proofs.Compiled
import TextTemplate.Proofs.Syntax.Relocation

/-!
Declarations hold for a whole template, wherever in its tree they stand. A tree that is read declares no
section twice and at most one layout, so that it does not matter which comes first; and nothing is
generated for them, so that the code does not show where they were.
-/
namespace TextTemplate

theorem map_eq_map {ε α β : Type} {x y : Except ε α} {f : α → β} :
    x.map f = y.map f ↔ (∃ e, x = .error e ∧ y = .error e) ∨ ∃ a b, x = .ok a ∧ y = .ok b ∧ f a = f b := by
  cases x <;> cases y <;> simp [Except.map, eq_comm]

namespace Session

theorem capture_comm {one two : String} (distinct : one ≠ two) (session : Session) (a b : CapturedSection) :
    ((session.capture one a).1.capture two b).1 = ((session.capture two b).1.capture one a).1 := by
  unfold capture Table.contains
  cases first : (session.sections.get? one).isSome <;> cases second : (session.sections.get? two).isSome <;>
    simp [first, second, distinct, distinct.symm]
  exact congrArg Table.mk (Table.insertInto_comm distinct.symm ..)

/-- Whether two declarations come to the same in either order. -/
def Exchangeable (origin : String) (one two : Declaration) : Prop :=
  ∀ session : Session, (session.declare origin one).declare origin two = (session.declare origin two).declare origin one

theorem exchangeable_self (origin : String) (one : Declaration) : Exchangeable origin one one :=
  fun _ => rfl

instance (origin : String) : Std.Symm (Exchangeable origin) where
  symm _ _ exchangeable session := (exchangeable session).symm

theorem layout_capture_comm (origin layout name : String) (body : SectionBody) :
    Exchangeable origin (.layout layout) (.capture name body) := by
  intro session
  by_cases present : session.sections.contains name
  · simp [declare, declareLayout, capture, present]
  · simp [declare, declareLayout, capture, present]

/-- Declarations of different sections, of which at most one is of a layout, can be exchanged. -/
theorem exchangeable_of_apart {origin : String} {one two : Declaration}
    (sections : ∀ name, one.section? = some name → ∀ other, two.section? = some other → name ≠ other)
    (layouts : ∀ name, one.layout? = some name → ∀ other, two.layout? = some other → False) :
    Exchangeable origin one two := by
  cases one with
  | layout name =>
    cases two with
    | layout other => exact (layouts name rfl other rfl).elim
    | capture other body => exact layout_capture_comm origin name other body
  | capture name body =>
    cases two with
    | layout other => exact symm (layout_capture_comm origin other name body)
    | capture other body' => exact fun session => capture_comm (sections name rfl other rfl) session _ _

end Session

namespace Stmt

theorem DeclaresOnce.exchangeable {all : List Stmt} (once : DeclaresOnce all) (origin : String) :
    (allDeclarations all).Pairwise (Session.Exchangeable origin) := by
  have sections := List.pairwise_filterMap.mp once.sections
  have layouts : ((allDeclarations all).filterMap Declaration.layout?).Pairwise fun _ _ => False := by
    have atMostOne := once.layouts
    generalize (allDeclarations all).filterMap Declaration.layout? = layouts at atMostOne
    match layouts, atMostOne with
    | [], _ => exact .nil
    | [only], _ => exact List.pairwise_singleton ..
  exact (sections.and (List.pairwise_filterMap.mp layouts)).imp fun apart =>
    Session.exchangeable_of_apart apart.1 apart.2

mutual

/-- A statement without the declarations in it. -/
def undeclared : Stmt → List Stmt
  | .text raw span => [.text raw span]
  | .output value span => [.output value span]
  | .conditional branches otherwise span =>
    [.conditional (undeclaredBranches branches) (undeclaredOtherwise otherwise) span]
  | .each item collection part span => [.each item collection part span]
  | .inclusion name span => [.inclusion name span]
  | .embedding name bindings span => [.embedding name bindings span]
  | .fill name span => [.fill name span]
  | .layout .. | .capture .. => []

def undeclaredAll : List Stmt → List Stmt
  | [] => []
  | stmt :: stmts => undeclared stmt ++ undeclaredAll stmts

def undeclaredBranches : List (Expr × List Stmt) → List (Expr × List Stmt)
  | [] => []
  | (condition, body) :: branches => (condition, undeclaredAll body) :: undeclaredBranches branches

/-- An other case stays that only held declarations. -/
def undeclaredOtherwise : Option (List Stmt) → Option (List Stmt)
  | none => none
  | some body => some (undeclaredAll body)

end

/-- Trees of which one has the declarations of the other, each in whatever place of the tree; all else stands in both
as it does, except for the spans. -/
structure Rearranged (stmts others : List Stmt) : Prop where
  rest : bareAll (undeclaredAll stmts) = bareAll (undeclaredAll others)
  declared : (allDeclarations stmts).Perm (allDeclarations others)

/-- What is declared in a tree that declares nothing twice is declared in any rearrangement of it. -/
theorem Rearranged.declareAll_eq {stmts others : List Stmt} (rearranged : Rearranged stmts others)
    (once : DeclaresOnce stmts) (origin : String) (session : Session) :
    declareAll origin session others = declareAll origin session stmts := by
  have exchangeable := (once.exchangeable origin).forall_of_forall fun one _ => Session.exchangeable_self origin one
  rw [Stmt.declareAll_eq, Stmt.declareAll_eq]
  refine (rearranged.declared.foldl_eq' (fun one first two second session => ?_) session).symm
  exact exchangeable first second session

theorem undeclaredAll_append (first rest : List Stmt) :
    undeclaredAll (first ++ rest) = undeclaredAll first ++ undeclaredAll rest := by
  induction first with
  | nil => rfl
  | cons stmt first ih => rw [List.cons_append, undeclaredAll, undeclaredAll, ih, List.append_assoc]

mutual

/-- Nothing is left to be taken out of a tree without declarations. -/
theorem undeclared_again : (stmt : Stmt) → undeclaredAll stmt.undeclared = stmt.undeclared ∧
    allDeclarations stmt.undeclared = []
  | .conditional branches otherwise span => by
    obtain ⟨sameBranches, noneInside⟩ := undeclaredBranches_again branches
    obtain ⟨sameOtherwise, noneOtherwise⟩ := undeclaredOtherwise_again otherwise
    rw [undeclared, undeclaredAll, undeclared, undeclaredAll, sameBranches, sameOtherwise, allDeclarations,
      declarations, allDeclarations, noneInside, noneOtherwise]
    exact ⟨rfl, rfl⟩
  | .text .. | .output .. | .each .. | .inclusion .. | .embedding .. | .fill .. | .layout .. | .capture .. => ⟨rfl, rfl⟩

theorem undeclaredAll_again : (stmts : List Stmt) → undeclaredAll (undeclaredAll stmts) = undeclaredAll stmts ∧
    allDeclarations (undeclaredAll stmts) = []
  | [] => ⟨rfl, rfl⟩
  | stmt :: stmts => by
    obtain ⟨first, noneFirst⟩ := undeclared_again stmt
    obtain ⟨rest, noneRest⟩ := undeclaredAll_again stmts
    rw [undeclaredAll, undeclaredAll_append, first, rest, allDeclarations_append, noneFirst, noneRest]
    exact ⟨rfl, rfl⟩

theorem undeclaredBranches_again : (branches : List (Expr × List Stmt)) →
    undeclaredBranches (undeclaredBranches branches) = undeclaredBranches branches ∧
      branchDeclarations (undeclaredBranches branches) = []
  | [] => ⟨rfl, rfl⟩
  | (condition, body) :: branches => by
    obtain ⟨first, noneFirst⟩ := undeclaredAll_again body
    obtain ⟨rest, noneRest⟩ := undeclaredBranches_again branches
    rw [undeclaredBranches, undeclaredBranches, first, rest, branchDeclarations, noneFirst, noneRest]
    exact ⟨rfl, rfl⟩

theorem undeclaredOtherwise_again : (otherwise : Option (List Stmt)) →
    undeclaredOtherwise (undeclaredOtherwise otherwise) = undeclaredOtherwise otherwise ∧
      otherwiseDeclarations (undeclaredOtherwise otherwise) = []
  | none => ⟨rfl, rfl⟩
  | some body => by
    obtain ⟨same, none⟩ := undeclaredAll_again body
    rw [undeclaredOtherwise, undeclaredOtherwise, same, otherwiseDeclarations, none]
    exact ⟨rfl, rfl⟩

end

/-- The statement that declares something. -/
def ofDeclaration : Declaration → Stmt
  | .layout name => .layout name {}
  | .capture name body => .capture name body {}

theorem all_ofDeclaration (declared : List Declaration) :
    undeclaredAll (declared.map ofDeclaration) = [] ∧ allDeclarations (declared.map ofDeclaration) = declared := by
  induction declared with
  | nil => exact ⟨rfl, rfl⟩
  | cons one declared ih =>
    obtain ⟨nothing, same⟩ := ih
    rw [List.map_cons, undeclaredAll, allDeclarations, nothing, same]
    cases one with
    | layout name => exact ⟨rfl, rfl⟩
    | capture name body => exact ⟨rfl, rfl⟩

/-- A tree with its declarations in front of all else. -/
def hoisted (stmts : List Stmt) : List Stmt :=
  (allDeclarations stmts).map ofDeclaration ++ undeclaredAll stmts

/-- Every tree can be rearranged so that its declarations stand in front. -/
theorem rearranged_hoisted (stmts : List Stmt) : Rearranged stmts (hoisted stmts) := by
  obtain ⟨nothing, declared⟩ := all_ofDeclaration (allDeclarations stmts)
  obtain ⟨same, none⟩ := undeclaredAll_again stmts
  constructor
  · rw [hoisted, undeclaredAll_append, nothing, same, List.nil_append]
  · rw [hoisted, allDeclarations_append, declared, none, List.append_nil]

end Stmt

namespace Expr

@[simp]
theorem bare_bare (e : Expr) : e.bare.bare = e.bare := by
  induction e with
  | var name span => rfl
  | const value span => rfl
  | member of name span ih => rw [bare, bare, ih]
  | not operand span ih => rw [bare, bare, ih]
  | filter name operand argument span ih => rw [bare, bare, ih]
  | binary op left right span ihl ihr => rw [bare, bare, ihl, ihr]

@[simp]
theorem bareBindings_bareBindings (bindings : List (String × Expr)) :
    bareBindings (bareBindings bindings) = bareBindings bindings := by
  simp [bareBindings]

theorem code_bare (e : Expr) : e.bare.code = e.code := by
  induction e with
  | var name span => rfl
  | const value span => rfl
  | member of name span ih => rw [bare, code, code, ih]
  | not operand span ih => rw [bare, code, code, ih]
  | filter name operand argument span ih => rw [bare, code, code, ih]
  | binary op left right span ihl ihr =>
    rw [bare]
    cases op <;> rw [code, code, ihl, ihr]

theorem length_bareBindings (bindings : List (String × Expr)) : (bareBindings bindings).length = bindings.length :=
  List.length_map ..

end Expr

namespace Filled

section
variable {session : Session} {filling : Filling}

theorem ofAll_append (first rest : List Stmt) :
    ofAll session filling (first ++ rest) = (do
      let first ← ofAll session filling first
      let rest ← ofAll session filling rest
      .ok (first ++ rest)) := by
  induction first with
  | nil => cases filled : ofAll session filling rest <;> simp [ofAll, filled, bind, Except.bind]
  | cons stmt first ih =>
    rw [List.cons_append, ofAll, ofAll, ih]
    cases ofStmt session filling stmt <;> cases ofAll session filling first <;> cases ofAll session filling rest <;>
      simp [bind, Except.bind]

theorem ofAll_singleton (stmt : Stmt) : ofAll session filling [stmt] = ofStmt session filling stmt := by
  rw [ofAll]
  cases ofStmt session filling stmt <;> simp [ofAll, bind, Except.bind]

mutual

theorem ofStmt_undeclared : (stmt : Stmt) → ofAll session filling stmt.undeclared = ofStmt session filling stmt
  | .conditional branches otherwise span => by
    rw [Stmt.undeclared, ofAll_singleton, ofStmt, ofStmt, ofBranches_undeclared branches,
      ofOtherwise_undeclared otherwise]
  | .text .. | .output .. | .each .. | .inclusion .. | .embedding .. | .fill .. => ofAll_singleton _
  | .layout .. | .capture .. => rfl

/-- Nothing stands for declarations. -/
theorem ofAll_undeclared : (stmts : List Stmt) →
    ofAll session filling (Stmt.undeclaredAll stmts) = ofAll session filling stmts
  | [] => rfl
  | stmt :: stmts => by
    rw [Stmt.undeclaredAll, ofAll_append, ofStmt_undeclared stmt, ofAll_undeclared stmts, ofAll]

theorem ofBranches_undeclared : (branches : List (Expr × List Stmt)) →
    ofBranches session filling (Stmt.undeclaredBranches branches) = ofBranches session filling branches
  | [] => rfl
  | (condition, body) :: branches => by
    rw [Stmt.undeclaredBranches, ofBranches, ofBranches, ofAll_undeclared body, ofBranches_undeclared branches]

theorem ofOtherwise_undeclared : (otherwise : Option (List Stmt)) →
    ofOtherwise session filling (Stmt.undeclaredOtherwise otherwise) = ofOtherwise session filling otherwise
  | none => rfl
  | some body => by
    rw [Stmt.undeclaredOtherwise, ofOtherwise, ofOtherwise, ofAll_undeclared body]

end

end

mutual

/-- A statement without its lines and spans. -/
def bare : Filled → Filled
  | .text raw _ => .text raw 0
  | .output value _ => .output value.bare 0
  | .conditional branches otherwise _ => .conditional (bareBranches branches) (bareOtherwise otherwise) 0
  | .each item collection part _ => .each item collection.bare part 0
  | .inclusion name _ => .inclusion name 0
  | .embedding name bindings _ => .embedding name (Expr.bareBindings bindings) 0
  | .unfilled _ => .unfilled 0
  | .filled origin body _ => .filled origin (bareAll body) 0

def bareAll : List Filled → List Filled
  | [] => []
  | statement :: rest => bare statement :: bareAll rest

def bareBranches : List (Expr × List Filled) → List (Expr × List Filled)
  | [] => []
  | (condition, body) :: rest => (condition.bare, bareAll body) :: bareBranches rest

def bareOtherwise : Option (List Filled) → Option (List Filled)
  | none => none
  | some body => some (bareAll body)

end

theorem bareAll_append (first rest : List Filled) : bareAll (first ++ rest) = bareAll first ++ bareAll rest := by
  induction first with
  | nil => rfl
  | cons statement first ih => rw [List.cons_append, bareAll, bareAll, ih, List.cons_append]

/-- Results that are made in the same way of results that look the same look the same. -/
theorem map_bind_congr {α α' β β' : Type} {x y : Except Fault α} {f : α → α'} {make make' : α → Except Fault β}
    {g : β → β'} (same : x.map f = y.map f)
    (makes : ∀ a b, f a = f b → (make a).map g = (make' b).map g) : (x >>= make).map g = (y >>= make').map g := by
  obtain ⟨fault, rfl, rfl⟩ | ⟨a, b, rfl, rfl, alike⟩ := map_eq_map.mp same
  · rfl
  · exact makes a b alike

section
variable {session : Session} {filling : Filling}

mutual

theorem ofStmt_bare : (stmt : Stmt) →
    (ofStmt session filling stmt.bare).map bareAll = (ofStmt session filling stmt).map bareAll
  | .conditional branches otherwise span => by
    refine map_bind_congr (ofBranches_bare branches) fun branches branches' alike => ?_
    refine map_bind_congr (ofOtherwise_bare otherwise) fun otherwise otherwise' alike' => ?_
    simp [Except.map, bareAll, bare, alike, alike']
  | .fill name span => by
    rw [Stmt.bare, ofStmt, ofStmt]
    cases session.section? name with
    | none => rfl
    | some captured =>
      refine map_bind_congr (f := id) rfl fun body body' alike => ?_
      rw [id_eq, id_eq] at alike
      simp [Except.map, bareAll, bare, alike]
  | .text .. | .output .. | .each .. | .inclusion .. | .embedding .. | .layout .. | .capture .. => by
    simp [Stmt.bare, ofStmt, Except.map, bareAll, bare]

theorem ofAll_bare : (stmts : List Stmt) →
    (ofAll session filling (Stmt.bareAll stmts)).map bareAll = (ofAll session filling stmts).map bareAll
  | [] => rfl
  | stmt :: stmts => by
    refine map_bind_congr (ofStmt_bare stmt) fun first first' alike => ?_
    refine map_bind_congr (ofAll_bare stmts) fun rest rest' alike' => ?_
    simp [Except.map, bareAll_append, alike, alike']

theorem ofBranches_bare : (branches : List (Expr × List Stmt)) →
    (ofBranches session filling (Stmt.bareBranches branches)).map bareBranches =
      (ofBranches session filling branches).map bareBranches
  | [] => rfl
  | (condition, body) :: branches => by
    refine map_bind_congr (ofAll_bare body) fun body body' alike => ?_
    refine map_bind_congr (ofBranches_bare branches) fun rest rest' alike' => ?_
    simp [Except.map, bareBranches, alike, alike']

theorem ofOtherwise_bare : (otherwise : Option (List Stmt)) →
    (ofOtherwise session filling (Stmt.bareOtherwise otherwise)).map bareOtherwise =
      (ofOtherwise session filling otherwise).map bareOtherwise
  | none => rfl
  | some body => by
    refine map_bind_congr (ofAll_bare body) fun body body' alike => ?_
    simp [Except.map, bareOtherwise, alike]

end

end

theorem bindingsCode_bare (bindings : List (String × Expr)) :
    bindingsCode (Expr.bareBindings bindings) = bindingsCode bindings := by
  induction bindings with
  | nil => rfl
  | cons binding rest ih =>
    obtain ⟨key, path⟩ := binding
    show bindingsCode ((key, path.bare) :: Expr.bareBindings rest) = _
    rw [bindingsCode, bindingsCode, Expr.code_bare, ih]

/-- The instructions of code, wherever they come from. -/
def instructions (code : List Located) : List Instruction :=
  code.map Prod.fst

@[simp]
theorem instructions_cons (instruction : Instruction) (origin : Origin) (code : List Located) :
    instructions ((instruction, origin) :: code) = instruction :: instructions code := rfl

@[simp]
theorem instructions_append (first rest : List Located) :
    instructions (first ++ rest) = instructions first ++ instructions rest :=
  List.map_append

@[simp]
theorem instructions_locate (origin : Origin) (code : List Instruction) : instructions (locate origin code) = code := by
  simp [instructions, locate, Function.comp_def]

theorem length_eq_of_instructions {code other : List Located} (same : instructions code = instructions other) :
    code.length = other.length := by
  simpa [instructions] using congrArg List.length same

theorem isEmpty_bareBranches (branches : List (Expr × List Filled)) :
    (bareBranches branches).isEmpty = branches.isEmpty := by
  cases branches <;> rfl

mutual

theorem code_bare : (template : Option String) → (statement : Filled) →
    instructions (code template statement.bare) = instructions (code template statement)
  | template, .conditional branches otherwise _ => by
    rw [bare, code, code]
    exact branchesCode_bare template branches (otherwiseCode_bare template otherwise)
  | template, .filled origin body _ => by
    rw [bare, code, code]
    exact codeAll_bare (some origin) body
  | template, .text .. | template, .output .. | template, .each .. | template, .inclusion ..
  | template, .embedding .. | template, .unfilled .. => by
    simp [bare, code, Expr.code_bare, bindingsCode_bare, Expr.length_bareBindings]

theorem codeAll_bare : (template : Option String) → (statements : List Filled) →
    instructions (codeAll template (bareAll statements)) = instructions (codeAll template statements)
  | _, [] => rfl
  | template, statement :: rest => by
    rw [bareAll, codeAll, codeAll, instructions_append, instructions_append, code_bare template statement,
      codeAll_bare template rest]

theorem branchesCode_bare : (template : Option String) → (branches : List (Expr × List Filled)) →
    {otherwise otherwise' : Option (List Located)} → (same : otherwise.map instructions = otherwise'.map instructions) →
    instructions (branchesCode template otherwise (bareBranches branches)) =
      instructions (branchesCode template otherwise' branches)
  | template, [], otherwise, otherwise', same => by
    rw [bareBranches, branchesCode, branchesCode]
    cases otherwise <;> cases otherwise' <;> simp_all
  | template, (condition, body) :: rest, otherwise, otherwise', same => by
    have inner := codeAll_bare template body
    have others := branchesCode_bare template rest same
    have noOther : otherwise.isNone = otherwise'.isNone := by
      simpa using congrArg Option.isNone same
    rw [bareBranches, branchesCode, branchesCode]
    dsimp only
    rw [isEmpty_bareBranches, noOther, Expr.code_bare, length_eq_of_instructions inner,
      length_eq_of_instructions others]
    split
    · simp [inner]
    · simp [inner, others]

theorem otherwiseCode_bare : (template : Option String) → (otherwise : Option (List Filled)) →
    (otherwiseCode template (bareOtherwise otherwise)).map instructions =
      (otherwiseCode template otherwise).map instructions
  | _, none => rfl
  | template, some body => by
    rw [bareOtherwise, otherwiseCode, otherwiseCode, Option.map_some, Option.map_some, codeAll_bare template body]

end

theorem ofStmts_eq_ofAll (session : Session) (depth : Nat) :
    ∃ filling, ofStmts session depth = ofAll session filling := by
  cases depth with
  | zero => exact ⟨_, by rw [ofStmts]⟩
  | succ depth => exact ⟨_, by rw [ofStmts]⟩

theorem ofStmts_undeclared (session : Session) (depth : Nat) (stmts : List Stmt) :
    ofStmts session depth (Stmt.undeclaredAll stmts) = ofStmts session depth stmts := by
  obtain ⟨filling, fills⟩ := ofStmts_eq_ofAll session depth
  rw [fills, ofAll_undeclared]

/-- Rearranged statements are filled alike. -/
theorem ofStmts_rearranged {stmts others : List Stmt} (rearranged : Stmt.Rearranged stmts others) (session : Session)
    (depth : Nat) : (ofStmts session depth others).map bareAll = (ofStmts session depth stmts).map bareAll := by
  obtain ⟨filling, fills⟩ := ofStmts_eq_ofAll session depth
  rw [← ofStmts_undeclared session depth stmts, ← ofStmts_undeclared session depth others, fills, ← ofAll_bare,
    ← rearranged.rest, ofAll_bare]

end Filled

namespace Listing

theorem instructions_ofStatements (statements : List Filled) :
    (ofStatements statements).instructions.toList =
      (Filled.instructions (Filled.codeAll none statements)).mapIdx fun index instruction =>
        instruction.retarget (index + 1 + ·) := by
  rw [ofStatements, instructions_ofCode, withTargets, Filled.instructions]
  apply List.ext_getElem <;> simp

theorem ofStatements_congr {statements others : List Filled}
    (same : Filled.bareAll statements = Filled.bareAll others) :
    (ofStatements statements).instructions = (ofStatements others).instructions := by
  apply Array.ext'
  rw [instructions_ofStatements, instructions_ofStatements, ← Filled.codeAll_bare, same, Filled.codeAll_bare]

end Listing

namespace Compiled

/-- What a session holds behind a tree that stands in the template `name`, and what is compiled from it. -/
def ofTree (name source : String) (session : Session) (stmts : List Stmt) : Session × Except Fault Compiled :=
  let session := Stmt.declareAll name session stmts
  (session,
    match Filled.ofStmts session maxFillDepth stmts with
    | .error fault => .error (fault.placedAt ⟨name, 0⟩)
    | .ok statements => .ok ⟨name, source, .ofStatements statements⟩)

/-- To compile a source is to compile the tree that is read from it. -/
theorem compile_eq_ofTree {name source : String} {template : Template}
    (parsed : Template.parse source name = .ok template) (session : Session) :
    compile name source session =
      (ofTree name source session template.children).2.map fun compiled =>
        (compiled, (ofTree name source session template.children).1) := by
  unfold compile ofTree
  rw [parsed]
  dsimp only [bind, Except.bind]
  cases Filled.ofStmts (Stmt.declareAll name session template.children) maxFillDepth template.children <;> rfl

/-- What is read from a source is compiled to the same instructions, or fails with the same fault, if the declarations
in it stand in other places, and leaves the same layout and the same sections in the session. -/
theorem ofTree_rearranged {name source : String} {template : Template}
    (parsed : Template.parse source name = .ok template) {others : List Stmt}
    (rearranged : Stmt.Rearranged template.children others) (session : Session) :
    (ofTree name source session others).1 = (ofTree name source session template.children).1 ∧
      (ofTree name source session others).2.map (·.listing.instructions) =
        (ofTree name source session template.children).2.map (·.listing.instructions) ∧
      compile name source session =
        (ofTree name source session template.children).2.map fun compiled =>
          (compiled, (ofTree name source session template.children).1) := by
  have once : Stmt.DeclaresOnce template.children := (Template.parse_spelledAs parsed).once
  have declared := rearranged.declareAll_eq once name session
  refine ⟨declared, ?_, compile_eq_ofTree parsed session⟩
  have alike := Filled.ofStmts_rearranged rearranged (Stmt.declareAll name session template.children) maxFillDepth
  unfold ofTree
  dsimp only
  rw [declared]
  obtain ⟨fault, filled, filled'⟩ | ⟨statements, statements', filled, filled', same⟩ := map_eq_map.mp alike
  · rw [filled, filled']
  · rw [filled, filled']
    exact congrArg Except.ok (Listing.ofStatements_congr same)

/-- A section moves out of a branch and the layout out of the other one. -/
theorem ofTree_rearranged_branches :
    let source := Template.tag "if x" ++ Template.tag "section 's'" ++ "A" ++ Template.tag "endsection" ++
      Template.tag "else" ++ Template.tag "extends 'L'" ++ Template.tag "endif" ++ Template.tag "fill 's'"
    ∃ template, Template.parse source "page" = .ok template ∧
      let others := Stmt.hoisted template.children
      template.children.length = 2 ∧ others.length = 4 ∧ Stmt.Rearranged template.children others ∧
        (ofTree "page" source {} others).1 = (ofTree "page" source {} template.children).1 ∧
        (ofTree "page" source {} others).2.map (·.listing.instructions) =
          (ofTree "page" source {} template.children).2.map (·.listing.instructions) ∧
        (compile "page" source {}).isOk = true := by
  intro source
  obtain ⟨⟨template, parsed, few, more⟩, compiles⟩ : (∃ template, Template.parse source "page" = .ok template ∧
      template.children.length = 2 ∧ (Stmt.hoisted template.children).length = 4) ∧
        (compile "page" source {}).isOk = true := by
    decide +kernel
  have rearranged := Stmt.rearranged_hoisted template.children
  obtain ⟨declared, same, -⟩ := ofTree_rearranged parsed rearranged {}
  exact ⟨template, parsed, few, more, rearranged, declared, same, compiles⟩

end Compiled

end TextTemplate
