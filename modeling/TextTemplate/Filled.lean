import TextTemplate.Session
import TextTemplate.Syntax.Parser

/-!
Statements with their fills replaced by the statements of the sections they name. Declarations
leave nothing behind. Sections may fill one another up to a bounded depth.
-/
namespace TextTemplate

inductive Filled where
  | text (text : String) (line : Nat)
  | output (value : Expr) (line : Nat)
  | conditional (branches : List (Expr × List Filled)) (otherwise : Option (List Filled)) (line : Nat)
  | each (item : String) (collection : Expr) (part : String) (line : Nat)
  | inclusion (name : String) (line : Nat)
  | embedding (name : String) (bindings : List (String × Expr)) (line : Nat)
  /-- A fill of a section that nothing captured. -/
  | unfilled (line : Nat)
  /-- The body of a section that was captured from the template `origin`. -/
  | filled (origin : String) (body : List Filled) (line : Nat)
  deriving Inhabited, Repr

/-- How many fills may lead from a template through section bodies to a statement. -/
def maxFillDepth : Nat := 32

namespace Filled

abbrev Result := Except Fault (List Filled)

/-- What stands for a fill of the section `name`. -/
abbrev Filling := String → CapturedSection → Result

mutual

def ofStmt (session : Session) (filling : Filling) : Stmt → Result
  | .text raw span => .ok [.text raw span.start.line]
  | .output value span => .ok [.output value span.start.line]
  | .conditional branches otherwise span => do
    let branches ← ofBranches session filling branches
    let otherwise ← ofOtherwise session filling otherwise
    .ok [.conditional branches otherwise span.start.line]
  | .each item collection part span => .ok [.each item collection part span.start.line]
  | .inclusion name span => .ok [.inclusion name span.start.line]
  | .embedding name bindings span => .ok [.embedding name bindings span.start.line]
  | .fill name span =>
    match session.section? name with
    | none => .ok [.unfilled span.start.line]
    | some captured => do
      let body ← filling name captured
      .ok [.filled captured.origin body span.start.line]
  | .layout .. | .capture .. => .ok []

def ofAll (session : Session) (filling : Filling) : List Stmt → Result
  | [] => .ok []
  | stmt :: stmts => do
    let first ← ofStmt session filling stmt
    let rest ← ofAll session filling stmts
    .ok (first ++ rest)

def ofBranches (session : Session) (filling : Filling) :
    List (Expr × List Stmt) → Except Fault (List (Expr × List Filled))
  | [] => .ok []
  | (condition, body) :: branches => do
    let body ← ofAll session filling body
    let rest ← ofBranches session filling branches
    .ok ((condition, body) :: rest)

def ofOtherwise (session : Session) (filling : Filling) :
    Option (List Stmt) → Except Fault (Option (List Filled))
  | none => .ok none
  | some body => do
    let body ← ofAll session filling body
    .ok (some body)

end

def parsed (captured : CapturedSection) : Except Fault Template :=
  Template.parsePart captured.body.text captured.origin captured.body.line captured.body.column

/-- Statements whose fills may go `depth` sections deep. -/
def ofStmts (session : Session) (depth : Nat) : List Stmt → Result :=
  match depth with
  | 0 => ofAll session fun name _ => .error { problem := .endlessFill name }
  | depth + 1 => ofAll session fun _ captured => do
    let template ← parsed captured
    ofStmts session depth template.children

end Filled

end TextTemplate
