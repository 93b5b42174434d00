import TextTemplate.Outline
import TextTemplate.Syntax.Tree
import TextTemplate.Table

/-!
What the templates of one render declare: the layout that goes around them, and the sections that
layouts fill in. Of several sections of one name the first stays.
-/
namespace TextTemplate

structure CapturedSection where
  origin : String
  body : SectionBody
  deriving DecidableEq, Repr

structure Session where
  layout : Option String := none
  sections : Table CapturedSection := {}

namespace CapturedSection

def outline (captured : CapturedSection) : Outline :=
  .record "CapturedSection" [.field "origin" (.quoted captured.origin), .field "source" (.quoted captured.body.text),
    .field "line" (.nat captured.body.line), .field "col" (.nat captured.body.column)]

end CapturedSection

namespace Session

def declareLayout (session : Session) (name : String) : Session :=
  { session with layout := some name }

def section? (session : Session) (name : String) : Option CapturedSection :=
  session.sections.get? name

/-- Captures a section unless there is one of that name, and tells whether it did. -/
def capture (session : Session) (name : String) (captured : CapturedSection) : Session × Bool :=
  if session.sections.contains name then (session, false)
  else ({ session with sections := session.sections.insert name captured }, true)

/-- Captures a text that stands in no template. -/
def captureText (session : Session) (name text : String) : Session × Bool :=
  session.capture name ⟨"<session>", ⟨text, 1, 0⟩⟩

/-- The text of a section, which is empty if there is none. -/
def fillText (session : Session) (name : String) : String :=
  ((session.section? name).map (·.body.text)).getD ""

def sectionNames (session : Session) : List String :=
  session.sections.names

/-- The layout, which the session then forgets. -/
def takeLayout (session : Session) : Option String × Session :=
  (session.layout, { session with layout := none })

/-- The session of a fragment, which sees the sections and has a layout of its own. -/
def fork (session : Session) : Session :=
  { session with layout := none }

def outline (session : Session) : Outline :=
  .record "RenderSession" [.field "layout" (.option (session.layout.map .quoted)),
    .field "sections" (.map (session.sections.entries.map fun (name, captured) =>
      .entry (.quoted name) captured.outline))]

end Session

namespace Stmt

mutual

/-- Declares the layouts and sections of a statement that stands in the template `origin`. -/
def declare (origin : String) (session : Session) : Stmt → Session
  | .conditional branches otherwise _ => declareOtherwise origin (declareBranches origin session branches) otherwise
  | .layout name _ => session.declareLayout name
  | .capture name body _ => (session.capture name ⟨origin, body⟩).1
  | .text .. | .output .. | .each .. | .inclusion .. | .embedding .. | .fill .. => session

def declareAll (origin : String) (session : Session) : List Stmt → Session
  | [] => session
  | stmt :: stmts => declareAll origin (declare origin session stmt) stmts

def declareBranches (origin : String) (session : Session) : List (Expr × List Stmt) → Session
  | [] => session
  | (_, body) :: branches => declareBranches origin (declareAll origin session body) branches

def declareOtherwise (origin : String) (session : Session) : Option (List Stmt) → Session
  | none => session
  | some body => declareAll origin session body

end

end Stmt

end TextTemplate
