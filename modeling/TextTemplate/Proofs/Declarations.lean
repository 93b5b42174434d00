import TextTemplate.Proofs.Tables
import TextTemplate.Session

/-!
What templates declare. The declarations of a template stand in the order of its source, those of
branches among the others. A session keeps the first section of a name and the last layout.
-/
namespace TextTemplate

inductive Declaration where
  | layout (name : String)
  | capture (name : String) (body : SectionBody)

namespace Declaration

def layout? : Declaration → Option String
  | .layout name => some name
  | .capture .. => none

/-- The body of the section `name`, if that is what is declared. -/
def body? (name : String) : Declaration → Option SectionBody
  | .layout _ => none
  | .capture other body => if other = name then some body else none

end Declaration

namespace Stmt

mutual

def declarations : Stmt → List Declaration
  | .conditional branches otherwise _ => branchDeclarations branches ++ otherwiseDeclarations otherwise
  | .layout name _ => [.layout name]
  | .capture name body _ => [.capture name body]
  | .text .. | .output .. | .each .. | .inclusion .. | .embedding .. | .fill .. => []

def allDeclarations : List Stmt → List Declaration
  | [] => []
  | stmt :: stmts => declarations stmt ++ allDeclarations stmts

def branchDeclarations : List (Expr × List Stmt) → List Declaration
  | [] => []
  | (_, body) :: branches => allDeclarations body ++ branchDeclarations branches

def otherwiseDeclarations : Option (List Stmt) → List Declaration
  | none => []
  | some body => allDeclarations body

end

theorem allDeclarations_append (first rest : List Stmt) :
    allDeclarations (first ++ rest) = allDeclarations first ++ allDeclarations rest := by
  induction first with
  | nil => rfl
  | cons stmt first ih => rw [List.cons_append, allDeclarations, allDeclarations, ih, List.append_assoc]

end Stmt

namespace Template

def declarations (template : Template) : List Declaration :=
  Stmt.allDeclarations template.children

/-- The layout that a template extends. -/
def layout? (template : Template) : Option String :=
  template.declarations.reverse.findSome? Declaration.layout?

/-- The body of the section that a template declares under a name. -/
def body? (template : Template) (name : String) : Option SectionBody :=
  template.declarations.findSome? (Declaration.body? name)

end Template

namespace Session

/-- A declaration of the template `origin`. -/
def declare (origin : String) (session : Session) : Declaration → Session
  | .layout name => session.declareLayout name
  | .capture name body => (session.capture name ⟨origin, body⟩).1

theorem section?_capture (session : Session) (name : String) (captured : CapturedSection) (other : String) :
    (session.capture name captured).1.section? other =
      (session.section? other).or (if name = other then some captured else none) := by
  unfold capture section?
  by_cases present : session.sections.contains name
  · rw [if_pos present]
    by_cases same : name = other
    · subst same
      obtain ⟨earlier, found⟩ := Option.isSome_iff_exists.mp present
      simp [found]
    · simp [same]
  · rw [if_neg present]
    simp only [Table.get?_insert]
    by_cases same : name = other
    · subst same
      have absent : session.sections.get? name = none := by simpa [Table.contains] using present
      simp [absent]
    · simp [same, Ne.symm same]

theorem layout_capture (session : Session) (name : String) (captured : CapturedSection) :
    (session.capture name captured).1.layout = session.layout := by
  rw [capture]
  split <;> rfl

theorem section?_declare (origin : String) (session : Session) (declaration : Declaration) (name : String) :
    (session.declare origin declaration).section? name =
      (session.section? name).or ((declaration.body? name).map (⟨origin, ·⟩)) := by
  cases declaration with
  | layout layout => simp [declare, declareLayout, section?, Declaration.body?]
  | capture other body =>
    rw [declare, section?_capture, Declaration.body?]
    split <;> rfl

theorem layout_declare (origin : String) (session : Session) (declaration : Declaration) :
    (session.declare origin declaration).layout = declaration.layout?.or session.layout := by
  cases declaration with
  | layout layout => rfl
  | capture name body => exact layout_capture session name _

theorem section?_foldl_declare (origin : String) (session : Session) (declarations : List Declaration)
    (name : String) :
    (declarations.foldl (declare origin) session).section? name =
      (session.section? name).or ((declarations.findSome? (Declaration.body? name)).map (⟨origin, ·⟩)) := by
  induction declarations generalizing session with
  | nil => simp
  | cons first rest ih =>
    rw [List.foldl_cons, ih, section?_declare, Option.or_assoc, List.findSome?_cons]
    cases first.body? name <;> rfl

theorem layout_foldl_declare (origin : String) (session : Session) (declarations : List Declaration) :
    (declarations.foldl (declare origin) session).layout =
      (declarations.reverse.findSome? Declaration.layout?).or session.layout := by
  induction declarations generalizing session with
  | nil => rfl
  | cons first rest ih =>
    rw [List.foldl_cons, ih, layout_declare, List.reverse_cons, List.findSome?_append, Option.or_assoc]
    congr 1
    rw [List.findSome?_singleton]

end Session

namespace Stmt

mutual

theorem declare_eq (origin : String) : (stmt : Stmt) → (session : Session) →
    declare origin session stmt = stmt.declarations.foldl (Session.declare origin) session
  | .conditional branches otherwise _, session => by
    rw [declare, declarations, List.foldl_append, declareBranches_eq, declareOtherwise_eq]
  | .layout .., _ | .capture .., _ | .text .., _ | .output .., _ | .each .., _ | .inclusion .., _
  | .embedding .., _ | .fill .., _ => rfl

theorem declareAll_eq (origin : String) : (stmts : List Stmt) → (session : Session) →
    declareAll origin session stmts = (allDeclarations stmts).foldl (Session.declare origin) session
  | [], _ => rfl
  | stmt :: stmts, session => by
    rw [declareAll, allDeclarations, List.foldl_append, declare_eq, declareAll_eq]

theorem declareBranches_eq (origin : String) : (branches : List (Expr × List Stmt)) → (session : Session) →
    declareBranches origin session branches = (branchDeclarations branches).foldl (Session.declare origin) session
  | [], _ => rfl
  | (_, body) :: branches, session => by
    rw [declareBranches, branchDeclarations, List.foldl_append, declareAll_eq, declareBranches_eq]

theorem declareOtherwise_eq (origin : String) : (otherwise : Option (List Stmt)) → (session : Session) →
    declareOtherwise origin session otherwise =
      (otherwiseDeclarations otherwise).foldl (Session.declare origin) session
  | none, _ => rfl
  | some body, session => by
    rw [declareOtherwise, otherwiseDeclarations, declareAll_eq]

end

end Stmt

namespace Template

/-- Sections that the session has stay; of the others, those of the template come in. -/
theorem section?_declareAll (template : Template) (origin : String) (session : Session) (name : String) :
    (Stmt.declareAll origin session template.children).section? name =
      (session.section? name).or ((template.body? name).map (⟨origin, ·⟩)) := by
  rw [Stmt.declareAll_eq, Session.section?_foldl_declare]
  rfl

theorem layout_declareAll (template : Template) (origin : String) (session : Session) :
    (Stmt.declareAll origin session template.children).layout = template.layout?.or session.layout := by
  rw [Stmt.declareAll_eq, Session.layout_foldl_declare]
  rfl

end Template

end TextTemplate
