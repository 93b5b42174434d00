import TextTemplate.Fault
import TextTemplate.Syntax.Statement

/-!
Reading templates, and the bodies of sections that were cut out of templates.
-/
namespace TextTemplate

/-- How deeply conditionals, expressions and operands nest. -/
def maxSyntaxLevels : Nat := 150

namespace Template

def parseFrom (source : List Char) (start : Cursor) : Except Misread Template :=
  let lexemes := start.lexemes
  let before : Position := ⟨start.position.line, 0, 0⟩
  let pending : Pending := { tokens := lexemes.tokens, problem := lexemes.problem, last := ⟨before, before⟩ }
  match Stmt.parse source maxSyntaxLevels (fun _ => false) pending with
  | .error e => .error e
  | .ok all => .ok ⟨all.value, pending.last.upTo all.next.last⟩

def fault (name : String) (misread : Misread) : Fault :=
  { problem := misread.problem, place := some ⟨name, misread.line⟩ }

/-- The tree of a template. A failure shows the source. -/
def parse (source name : String) : Except Fault Template :=
  match parseFrom source.toList (Source.start source) with
  | .ok template => .ok template
  | .error misread => .error { fault name misread with source := some source }

/-- The tree of a section body, with places in the template it was cut out of. -/
def parsePart (source name : String) (line column : Nat) : Except Fault Template :=
  match parseFrom source.toList (Source.startAt source line column) with
  | .ok template => .ok template
  | .error misread => .error (fault name misread)

end Template

end TextTemplate
