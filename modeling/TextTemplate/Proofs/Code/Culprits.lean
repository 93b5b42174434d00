import TextTemplate.Proofs.Code.Effects
import TextTemplate.Proofs.Syntax.Nodes

/-!
What a failure comes from. Of statements that fail, one expression, one collection or the render of one
item does, which stands in a tag or in a condition of the template or of a section that fills it.
-/
namespace TextTemplate

/-- What fails: a node, the template of the section that it is part of, if it is part of one, and the
render that failed there, if that is why. -/
structure Culprit where
  node : Node
  template : Option String
  call : Option Machine.Call

def Culprit.origin (culprit : Culprit) : Origin :=
  ⟨culprit.node.line, culprit.template⟩

/-- What fails of a node that first computes a value. -/
def Culprit.ofValue {α : Type} (node : Node) (template : Option String) (value : Except Problem α)
    (next : α → Option Culprit) : Option Culprit :=
  match value with
  | .ok a => next a
  | .error _ => some ⟨node, template, none⟩

namespace Stmt

/-- What fails when a fill of the section `name` does. -/
abbrev FillCulprit := (name : String) → Sink → Option Culprit

section
variable (scene : Scene) (nested : Nested) (fill : FillWriter) (filled : FillCulprit) (template : Option String)

mutual

/-- What fails when a statement does; nothing if it is the output. -/
def culprit : Stmt → Sink → Option Culprit
  | .output value span, _ =>
    Culprit.ofValue (.tag (.output value span)) template (value.evaluate scene.env scene.vars) fun _ => none
  | .conditional branches otherwise _, sink =>
    branchesCulprit (fun sink => otherwiseCulprit otherwise sink) branches sink
  | .each item collection part span, sink =>
    let tag := Node.tag (.each item collection part span)
    Culprit.ofValue tag template (collection.evaluate scene.env scene.vars) fun v =>
      some ⟨tag, template, (Machine.itemCalls scene nested item part sink (v.items?.getD [])).getLast?⟩
  | .embedding name bindings span, _ =>
    Culprit.ofValue (.tag (.embedding name bindings span)) template
      (Expr.evaluateBindings scene.env scene.vars bindings) fun _ => none
  | .fill name _, sink => filled name sink
  | .text .., _ | .inclusion .., _ | .layout .., _ | .capture .., _ => none

def allCulprit : List Stmt → Sink → Option Culprit
  | [], _ => none
  | stmt :: stmts, sink =>
    let outcome := evaluate scene nested fill stmt sink
    match outcome.result with
    | .ok () => allCulprit stmts outcome.sink
    | .error _ => culprit stmt sink

def branchesCulprit (otherwise : Sink → Option Culprit) : List (Expr × List Stmt) → Sink → Option Culprit
  | [], sink => otherwise sink
  | (condition, body) :: branches, sink =>
    Culprit.ofValue (.condition condition) template (condition.evaluate scene.env scene.vars) fun v =>
      if v.isTrue then allCulprit body sink else branchesCulprit otherwise branches sink

def otherwiseCulprit : Option (List Stmt) → Sink → Option Culprit
  | none, _ => none
  | some body, sink => allCulprit body sink

end

end

section
variable (scene : Scene) (nested : Nested) (sections : String → Option CapturedSection)

/-- What a fill writes whose sections may be filled `depth` deep. -/
def fillWriter (depth : Nat) : FillWriter := fun name sink =>
  match sections name with
  | none => ⟨sink, .ok ()⟩
  | some captured =>
    match depth with
    | 0 => ⟨sink, .error (.ofProblem (.endlessFill name))⟩
    | depth + 1 =>
      match Filled.parsed captured with
      | .ok template => evaluateFilled scene nested sections depth template.children sink
      | .error fault => ⟨sink, .error ⟨fault, []⟩⟩

theorem evaluateFilled_eq (depth : Nat) :
    evaluateFilled scene nested sections depth = evaluateAll scene nested (fillWriter scene nested sections depth) := by
  unfold evaluateFilled fillWriter
  cases depth <;> rfl

variable {scene nested sections} {name : String} {captured : CapturedSection} {part : Template}

theorem fillWriter_missing (missing : sections name = none) (depth : Nat) :
    fillWriter scene nested sections depth name = fun sink => ⟨sink, .ok ()⟩ := by
  funext sink
  simp only [fillWriter, missing]

theorem fillWriter_captured (found : sections name = some captured) (parsed : Filled.parsed captured = .ok part)
    (depth : Nat) :
    fillWriter scene nested sections (depth + 1) name = evaluateFilled scene nested sections depth part.children := by
  funext sink
  simp only [fillWriter, found, parsed]

variable (scene nested sections)

/-- What fails of statements that stand in `template`; a section's own statements stand in its template. -/
def filledCulprit (depth : Nat) (template : Option String) : List Stmt → Sink → Option Culprit :=
  allCulprit scene nested (fillWriter scene nested sections depth) (fun name sink =>
    match sections name with
    | none => none
    | some captured =>
      match depth with
      | 0 => none
      | depth + 1 =>
        match Filled.parsed captured with
        | .ok part => filledCulprit depth (some captured.origin) part.children sink
        | .error _ => none) template

end

end Stmt

namespace Stmt

/-- What fails stands in a template itself, or in a section that a fill stands for. -/
inductive Stems (sections : String → Option CapturedSection) (template : Option String) (nodes : List Node) :
    Culprit → Prop where
  | own {node : Node} {call : Option Machine.Call} : node ∈ nodes → Stems sections template nodes ⟨node, template, call⟩
  | captured {node : Node} {call : Option Machine.Call} {name : String} {captured : CapturedSection} {part : Template} :
    sections name = some captured → Filled.parsed captured = .ok part → node ∈ allNodes part.children →
    Stems sections template nodes ⟨node, some captured.origin, call⟩

section
variable {scene : Scene} {nested : Nested} {fill : FillWriter} {filled : FillCulprit} {template : Option String}
  {sections : String → Option CapturedSection} {culprit : Culprit} {α : Type}

theorem Stems.mono {nodes more : List Node} (stems : Stems sections template nodes culprit) (within : nodes ⊆ more) :
    Stems sections template more culprit := by
  cases stems with
  | own found => exact .own (within found)
  | captured found parsed inside => exact .captured found parsed inside

/-- Each fill stands for statements of a section. -/
def FillStems (sections : String → Option CapturedSection) (filled : FillCulprit) : Prop :=
  ∀ {name sink culprit}, filled name sink = some culprit → ∀ template nodes, Stems sections template nodes culprit

theorem stems_ofValue {node : Node} {nodes : List Node} {value : Except Problem α} {next : α → Option Culprit}
    (found : Culprit.ofValue node template value next = some culprit) (inside : node ∈ nodes)
    (rest : ∀ a, next a = some culprit → Stems sections template nodes culprit) :
    Stems sections template nodes culprit := by
  cases value with
  | ok a => exact rest a found
  | error problem =>
    obtain rfl := Option.some.inj found
    exact .own inside

mutual

theorem culprit_stems (fills : FillStems sections filled) :
    (stmt : Stmt) → {sink : Sink} → Stmt.culprit scene nested fill filled template stmt sink = some culprit →
      Stems sections template stmt.nodes culprit
  | .output value span, sink, found => by
    refine stems_ofValue found List.mem_cons_self fun v impossible => ?_
    cases impossible
  | .conditional branches otherwise span, sink, found => by
    refine branchesCulprit_stems fills branches (fun found => ?_) (List.subset_append_left ..) found
    exact (otherwiseCulprit_stems fills otherwise found).mono (List.subset_append_right ..)
  | .each item collection part span, sink, found => by
    refine stems_ofValue found List.mem_cons_self fun v same => ?_
    obtain rfl := Option.some.inj same
    exact .own List.mem_cons_self
  | .embedding name bindings span, sink, found => by
    refine stems_ofValue found List.mem_cons_self fun v impossible => ?_
    cases impossible
  | .fill name span, sink, found => fills found _ _
  | .text .., sink, found | .inclusion .., sink, found | .layout .., sink, found | .capture .., sink, found => by
    cases found

theorem allCulprit_stems (fills : FillStems sections filled) :
    (stmts : List Stmt) → {sink : Sink} → allCulprit scene nested fill filled template stmts sink = some culprit →
      Stems sections template (allNodes stmts) culprit
  | [], sink, found => by cases found
  | stmt :: stmts, sink, found => by
    rw [allCulprit] at found
    split at found
    · exact (allCulprit_stems fills stmts found).mono (List.subset_append_right ..)
    · exact (culprit_stems fills stmt found).mono (List.subset_append_left ..)

theorem branchesCulprit_stems (fills : FillStems sections filled) :
    (branches : List (Expr × List Stmt)) → {otherwise : Sink → Option Culprit} → {nodes : List Node} →
      (∀ {sink}, otherwise sink = some culprit → Stems sections template nodes culprit) →
      branchNodes branches ⊆ nodes →
      {sink : Sink} → branchesCulprit scene nested fill filled template otherwise branches sink = some culprit →
      Stems sections template nodes culprit
  | [], otherwise, nodes, behind, within, sink, found => behind found
  | (condition, body) :: branches, otherwise, nodes, behind, within, sink, found => by
    obtain ⟨first, rest⟩ := List.cons_subset.mp within
    refine stems_ofValue found first fun v same => ?_
    split at same
    · exact (allCulprit_stems fills body same).mono fun node inside => rest (List.mem_append_left _ inside)
    · exact branchesCulprit_stems fills branches behind (fun node inside => rest (List.mem_append_right _ inside)) same

theorem otherwiseCulprit_stems (fills : FillStems sections filled) :
    (otherwise : Option (List Stmt)) → {sink : Sink} →
      otherwiseCulprit scene nested fill filled template otherwise sink = some culprit →
      Stems sections template (otherwiseNodes otherwise) culprit
  | none, sink, found => by cases found
  | some body, sink, found => allCulprit_stems fills body found

end

theorem filledCulprit_stems {depth : Nat} {stmts : List Stmt} {sink : Sink}
    (found : filledCulprit scene nested sections depth template stmts sink = some culprit) :
    Stems sections template (allNodes stmts) culprit := by
  induction depth generalizing template stmts sink culprit with
  | zero =>
    unfold filledCulprit at found
    refine allCulprit_stems (fun {name sink culprit} found => ?_) stmts found
    dsimp only at found
    split at found <;> cases found
  | succ depth ih =>
    unfold filledCulprit at found
    refine allCulprit_stems (fun {name sink culprit} found template nodes => ?_) stmts found
    dsimp only at found
    split at found
    · cases found
    rename_i captured known
    split at found
    · rename_i part parsed
      cases ih found with
      | own inside => exact .captured known parsed inside
      | captured known' parsed' inside => exact .captured known' parsed' inside
    · cases found

end

end Stmt

end TextTemplate
