import TextTemplate.Text.Quoted
import TextTemplate.Value.Basic

/-!
What can go wrong while a template is read, compiled and rendered, with the kind and the wording of
each problem.
-/
namespace TextTemplate

inductive FaultKind where
  | syntaxError
  | templateNotFound
  | executionError
  | fragmentRender
  | readFailure
  | writeFailure
  | badSerialization
  deriving DecidableEq, Repr

namespace FaultKind

def text : FaultKind → String
  | .syntaxError => "syntax error"
  | .templateNotFound => "template not found"
  | .executionError => "template execution failed"
  | .fragmentRender => "could not render fragment"
  | .readFailure => "could not read template"
  | .writeFailure => "failed to write output"
  | .badSerialization => "could not serialize to value"

/-- The name in structured listings. -/
def listing : FaultKind → String
  | .syntaxError => "SyntaxError"
  | .templateNotFound => "TemplateNotFound"
  | .executionError => "ExecutionError"
  | .fragmentRender => "FragmentRender"
  | .readFailure => "ReadFailure"
  | .writeFailure => "WriteFailure"
  | .badSerialization => "BadSerialization"

end FaultKind

/-- What can be wrong with the source of a template. -/
inductive SyntaxProblem where
  -- in the characters of a tag
  | endInsideTag
  | unexpectedCharacter
  | unendedString
  | badEscape
  | integerRange
  -- in the tokens of a template
  | unexpected (found expected : String)
  | misplacedKeyword (keyword : String)
  | tooNested
  | secondLayout
  | repeatedSection (name : String)
  | nestedSection
  | bindingNoPath (found : String)
  deriving DecidableEq, Repr

inductive Problem where
  | ofSyntax (problem : SyntaxProblem)
  -- in the sections that fill a template
  | endlessFill (name : String)
  -- in the run of a template
  | layoutCycle (name : String)
  | tooDeep
  | incomparable (left right : ValueKind)
  | notIterable (kind : ValueKind)
  | keyNoText (kind : ValueKind)
  | emptyStack
  -- around it
  | noTemplate (name path : String) (siblings : List String)
  | brokenFragment (tag name : String)
  | unreadable (path : String)
  | writerFailed
  | formattingFailed
  | keyNoScalar (kind : ValueKind)
  | unconvertible (message : String)
  | reported (kind : FaultKind) (detail : Option String)
  deriving DecidableEq, Repr

instance : Coe SyntaxProblem Problem := ⟨.ofSyntax⟩

namespace SyntaxProblem

def detail : SyntaxProblem → String
  | .endInsideTag => "unexpected end of input, expected end of tag"
  | .unexpectedCharacter => "unexpected character"
  | .unendedString => "unexpected end of string"
  | .badEscape => "bad string escape"
  | .integerRange => "invalid integer"
  | .unexpected found expected => "unexpected " ++ found ++ ", expected " ++ expected
  | .misplacedKeyword keyword => "unexpected `" ++ keyword ++ "`"
  | .tooNested => "template exceeds maximum recursion limits"
  | .secondLayout => "tried to extend a second time in a template"
  | .repeatedSection name => "section " ++ Text.quoted name ++ " defined twice"
  | .nestedSection => "sections cannot be nested"
  | .bindingNoPath found => "embed bindings must be dotted paths, got " ++ found

end SyntaxProblem

namespace Problem

def kind : Problem → FaultKind
  | .ofSyntax _ | .endlessFill _ => .syntaxError
  | .layoutCycle _ | .tooDeep | .incomparable .. | .notIterable _ | .keyNoText _ | .emptyStack =>
    .executionError
  | .noTemplate .. => .templateNotFound
  | .brokenFragment .. => .fragmentRender
  | .unreadable _ => .readFailure
  | .writerFailed | .formattingFailed => .writeFailure
  | .keyNoScalar _ | .unconvertible _ => .badSerialization
  | .reported kind _ => kind

def detail? : Problem → Option String
  | .ofSyntax problem => some problem.detail
  | .endlessFill name => some ("section " ++ Text.quoted name ++ " is filled recursively")
  | .layoutCycle name => some ("cycle in template inheritance: " ++ Text.quoted name ++ " was extended twice")
  | .tooDeep => some "recursion limit exceeded while rendering nested templates"
  | .incomparable left right => some ("cannot compare " ++ left.name ++ " and " ++ right.name)
  | .notIterable kind => some ("cannot iterate over " ++ kind.name)
  | .keyNoText kind => some ("map keys must be strings, got " ++ kind.name)
  | .emptyStack => some "stack underflow"
  | .noTemplate name path _ =>
    some ("template " ++ Text.quoted name ++ " does not exist (looked in " ++ path ++ ")")
  | .brokenFragment tag name => some (tag ++ " " ++ Text.quoted name)
  | .unreadable path => some ("could not read " ++ path)
  | .writerFailed => some "I/O error during rendering"
  | .formattingFailed => some "formatting failed"
  | .keyNoScalar kind => some ("map keys must be scalars, got " ++ kind.name)
  | .unconvertible message => some message
  | .reported _ detail => detail

/-- Where a missing template was looked for. -/
def attemptedPath? : Problem → Option String
  | .noTemplate _ path _ => some path
  | _ => none

/-- The templates that stand where a missing one was looked for. -/
def siblings : Problem → List String
  | .noTemplate _ _ siblings => siblings
  | _ => []

end Problem

end TextTemplate
