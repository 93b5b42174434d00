import TextTemplate.Decimal.Style
import TextTemplate.Outline
import TextTemplate.Syntax.Span

/-!
Tokens of a template: stretches of plain text, the ends of tags, and what stands inside of tags.
-/
namespace TextTemplate

inductive Token where
  | text (text : String)
  | tagStart
  | tagEnd
  | word (name : String)
  /-- A string that is written as it is. -/
  | plainString (text : String)
  /-- A string that was written with escapes. -/
  | escapedString (text : String)
  | int (i : Int)
  | float (x : Binary64)
  | dot
  | comma
  | colon
  | pipe
  | arrow
  | eq
  | ne
  | gt
  | gte
  | lt
  | lte
  | bang
  | andAnd
  | orOr
  | bracketOpen
  | bracketClose
  | parenOpen
  | parenClose
  deriving DecidableEq, Repr

structure Lexeme where
  token : Token
  span : Span
  deriving DecidableEq, Repr

namespace Token

/-- What messages call a token. -/
def description : Token → String
  | .text _ => "template-data"
  | .tagStart => "start of tag"
  | .tagEnd => "end of tag"
  | .word _ => "identifier"
  | .plainString _ | .escapedString _ => "string"
  | .int _ => "integer"
  | .float _ => "float"
  | .dot => "`.`"
  | .comma => "`,`"
  | .colon => "`:`"
  | .pipe => "`|`"
  | .arrow => "`=>`"
  | .eq => "`==`"
  | .ne => "`!=`"
  | .gt => "`>`"
  | .gte => "`>=`"
  | .lt => "`<`"
  | .lte => "`<=`"
  | .bang => "`!`"
  | .andAnd => "`&&`"
  | .orOr => "`||`"
  | .bracketOpen => "`[`"
  | .bracketClose => "`]`"
  | .parenOpen => "`(`"
  | .parenClose => "`)`"

/-- The form of a token in listings. -/
def outline : Token → Outline
  | .text s => .call "TemplateData" [.quoted s]
  | .tagStart => .atom "TagStart"
  | .tagEnd => .atom "TagEnd"
  | .word s => .call "Ident" [.quoted s]
  | .plainString s => .call "Str" [.quoted s]
  | .escapedString s => .call "String" [.quoted s]
  | .int i => .call "Int" [.atom (toString i)]
  | .float x => .call "Float" [.atom (NumberStyle.listing.write x)]
  | .dot => .atom "Dot"
  | .comma => .atom "Comma"
  | .colon => .atom "Colon"
  | .pipe => .atom "Pipe"
  | .arrow => .atom "Arrow"
  | .eq => .atom "Eq"
  | .ne => .atom "Ne"
  | .gt => .atom "Gt"
  | .gte => .atom "Gte"
  | .lt => .atom "Lt"
  | .lte => .atom "Lte"
  | .bang => .atom "Bang"
  | .andAnd => .atom "AndAnd"
  | .orOr => .atom "OrOr"
  | .bracketOpen => .atom "BracketOpen"
  | .bracketClose => .atom "BracketClose"
  | .parenOpen => .atom "ParenOpen"
  | .parenClose => .atom "ParenClose"

end Token

end TextTemplate
