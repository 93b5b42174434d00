import TextTemplate.Code.Generate

/-!
Compiled templates. To compile a template is to declare its layout and sections first and to fill it
from what the session then holds, so that its fills see its own sections wherever they stand.
-/
namespace TextTemplate

structure Compiled where
  name : String
  source : String
  listing : Listing

namespace Compiled

/-- The compiled template and what the session holds behind it. -/
def compile (name source : String) (session : Session) : Except Fault (Compiled × Session) := do
  let template ← Template.parse source name
  let session := Stmt.declareAll name session template.children
  match Filled.ofStmts session maxFillDepth template.children with
  | .error fault => .error (fault.placedAt ⟨name, 0⟩)
  | .ok statements => .ok (⟨name, source, .ofStatements statements⟩, session)

/-- The code as failures show it. -/
def form (compiled : Compiled) : String :=
  compiled.listing.outline.indented

def outline (compiled : Compiled) : Outline :=
  .record "CompiledTemplate" [.field "name" (.quoted compiled.name), .field "instructions" compiled.listing.outline]

end Compiled

end TextTemplate
