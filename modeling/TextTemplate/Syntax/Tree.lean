import TextTemplate.Syntax.Span
import TextTemplate.Value.Printing

/-!
Syntax trees of templates. Every node carries the span of its source.
-/
namespace TextTemplate

inductive BinaryOp where
  | eq
  | ne
  | lt
  | lte
  | gt
  | gte
  | and
  | or
  deriving DecidableEq, Repr

inductive Expr where
  | var (name : String) (span : Span)
  | const (value : Value) (span : Span)
  | member (of : Expr) (name : String) (span : Span)
  | not (operand : Expr) (span : Span)
  | binary (op : BinaryOp) (left right : Expr) (span : Span)
  | filter (name : String) (operand : Expr) (argument : Option String) (span : Span)
  deriving Inhabited, Repr

/-- The text of a section as it stands in its template, and where it starts there. -/
structure SectionBody where
  text : String
  line : Nat
  column : Nat
  deriving DecidableEq, Repr

inductive Stmt where
  | text (text : String) (span : Span)
  | output (value : Expr) (span : Span)
  | conditional (branches : List (Expr × List Stmt)) (otherwise : Option (List Stmt)) (span : Span)
  | each (item : String) (collection : Expr) (part : String) (span : Span)
  | inclusion (name : String) (span : Span)
  | embedding (name : String) (bindings : List (String × Expr)) (span : Span)
  | fill (name : String) (span : Span)
  | layout (name : String) (span : Span)
  | capture (name : String) (body : SectionBody) (span : Span)
  deriving Inhabited, Repr

structure Template where
  children : List Stmt
  span : Span
  deriving Repr

namespace BinaryOp

/-- The name in structured listings. -/
def listing : BinaryOp → String
  | .eq => "Eq"
  | .ne => "Ne"
  | .lt => "Lt"
  | .lte => "Lte"
  | .gt => "Gt"
  | .gte => "Gte"
  | .and => "ScAnd"
  | .or => "ScOr"

end BinaryOp

namespace Expr

def span : Expr → Span
  | .var _ span | .const _ span | .member _ _ span | .not _ span | .binary _ _ _ span
  | .filter _ _ _ span => span

def description : Expr → String
  | .var .. => "variable"
  | .const .. => "constant"
  | .member .. => "attribute lookup"
  | .not .. | .binary .. => "operator"
  | .filter .. => "filter expression"

/-- Whether an expression is a variable followed by path segments. -/
def isPath : Expr → Bool
  | .var .. => true
  | .member of _ _ => of.isPath
  | _ => false

def outline : Expr → Outline
  | .var name span => .marked (.record "Var" [.field "id" (.quoted name)]) span.mark
  | .const value span => .marked (.record "Const" [.field "value" value.outline]) span.mark
  | .member of name span =>
    .marked (.record "GetAttr" [.field "expr" of.outline, .field "name" (.quoted name)]) span.mark
  | .not operand span =>
    .marked (.record "UnaryOp" [.field "op" (.atom "Not"), .field "expr" operand.outline]) span.mark
  | .binary op left right span =>
    .marked (.record "BinOp"
      [.field "op" (.atom op.listing), .field "left" left.outline, .field "right" right.outline]) span.mark
  | .filter name operand argument span =>
    .marked (.record "Filter" [.field "name" (.quoted name), .field "expr" operand.outline,
      .field "arg" (.option (argument.map .quoted))]) span.mark

end Expr

namespace Stmt

def span : Stmt → Span
  | .text _ span | .output _ span | .conditional _ _ span | .each _ _ _ span | .inclusion _ span
  | .embedding _ _ span | .fill _ span | .layout _ span | .capture _ _ span => span

def bindingOutlines (bindings : List (String × Expr)) : List Outline :=
  bindings.map fun (key, path) => .pair (.quoted key) path.outline

mutual

def outline : Stmt → Outline
  | .text raw span => .marked (.record "EmitRaw" [.field "raw" (.quoted raw)]) span.mark
  | .output value span => .marked (.record "EmitExpr" [.field "expr" value.outline]) span.mark
  | .conditional branches otherwise span =>
    .marked (.record "Conditional" [.field "branches" (.list (branchOutlines branches)),
      .field "else_body" (otherwiseOutline otherwise)]) span.mark
  | .each item collection part span =>
    .marked (.record "Each" [.field "item" (.quoted item), .field "collection" collection.outline,
      .field "partial" (.quoted part)]) span.mark
  | .inclusion name span => .marked (.record "Include" [.field "name" (.quoted name)]) span.mark
  | .embedding name bindings span =>
    .marked (.record "Embed" [.field "name" (.quoted name),
      .field "bindings" (.list (bindingOutlines bindings))]) span.mark
  | .fill name span => .marked (.record "Fill" [.field "name" (.quoted name)]) span.mark
  | .layout name span => .marked (.record "Extends" [.field "name" (.quoted name)]) span.mark
  | .capture name body span =>
    .marked (.record "Section" [.field "name" (.quoted name), .field "body" (.quoted body.text),
      .field "body_line" (.nat body.line), .field "body_col" (.nat body.column)]) span.mark

def outlines : List Stmt → List Outline
  | [] => []
  | stmt :: stmts => outline stmt :: outlines stmts

def branchOutlines : List (Expr × List Stmt) → List Outline
  | [] => []
  | (condition, body) :: branches =>
    .record "CondBranch" [.field "expr" condition.outline, .field "body" (.list (outlines body))]
      :: branchOutlines branches

def otherwiseOutline : Option (List Stmt) → Outline
  | none => .option none
  | some body => .option (some (.list (outlines body)))

end

end Stmt

namespace Template

def outline (template : Template) : Outline :=
  .marked (.record "Template" [.field "children" (.list (Stmt.outlines template.children))]) template.span.mark

end Template

end TextTemplate
