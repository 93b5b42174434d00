import TextTemplate.Syntax.Parse
import TextTemplate.Syntax.Tree

/-!
Reading expressions. From loosest to tightest bind `or`, `and`, `not`, the comparisons, filters and
path segments; operators of one level group to the left. `levels` bounds how deeply expressions and
operands nest.
-/
namespace TextTemplate.Expr

open Parse

abbrev Operator := Token → Option BinaryOp

def orOperator : Operator
  | .orOr | .word "or" => some .or
  | _ => none

def andOperator : Operator
  | .andAnd | .word "and" => some .and
  | _ => none

def comparison : Operator
  | .eq => some .eq
  | .ne => some .ne
  | .lt => some .lt
  | .lte => some .lte
  | .gt => some .gt
  | .gte => some .gte
  | _ => none

def isNot : Token → Bool
  | .bang | .word "not" => true
  | _ => false

/-- Operators of one level and their right operands, after the left one. -/
def chain (operator : Operator) (operand : Parse Expr) (first : Span) (left : Expr) : Parse Expr := fun start =>
  match front : start.tokens with
  | [] =>
    match start.problem with
    | some problem => .error (start.misread problem)
    | none => .ok ⟨left, start, Nat.le_refl _⟩
  | lexeme :: rest =>
    match operator lexeme.token with
    | none => .ok ⟨left, start, Nat.le_refl _⟩
    | some op =>
      match operand (start.behind lexeme rest) with
      | .error e => .error e
      | .ok right =>
        have shorter := Nat.lt_of_le_of_lt right.within (Pending.behind_size front)
        match chain operator operand first (.binary op left right.value (first.upTo right.next.last)) right.next with
        | .error e => .error e
        | .ok all => .ok ⟨all.value, all.next, Nat.le_trans all.within (Nat.le_of_lt shorter)⟩
termination_by start => start.size

/-- Operands of one level with the operators between them. -/
def operation (operator : Operator) (operand : Parse Expr) : Parse Expr := do
  let first ← nextSpan
  let left ← operand
  chain operator operand first left

/-- Any number of negations in front of an operand. -/
def negation (operand : Parse Expr) : Parse Expr := fun start =>
  match front : start.tokens with
  | [] =>
    match start.problem with
    | some problem => .error (start.misread problem)
    | none => operand start
  | lexeme :: rest =>
    if isNot lexeme.token then
      have shorter := Pending.behind_size front
      match negation operand (start.behind lexeme rest) with
      | .error e => .error e
      | .ok inner =>
        .ok ⟨.not inner.value (lexeme.span.upTo inner.next.last), inner.next,
          Nat.le_trans inner.within (Nat.le_of_lt shorter)⟩
    else operand start
termination_by start => start.size

/-- The text of a filter argument. -/
def argumentText : Token → Option String
  | .plainString s | .escapedString s => some s
  | .int i => some (toString i)
  | .float x => some (NumberStyle.plain.write x)
  | _ => none

def wordName : Token → Option String
  | .word name => some name
  | _ => none

def filterStep : Parse (String × Option String) := do
  let (name, _) ← expect "filter name" wordName
  if ← skip .colon then
    let (argument, _) ← expect "filter argument" argumentText
    return (name, some argument)
  else return (name, none)

/-- Filters after an operand. -/
def filters (first : Span) (operand : Expr) : Parse Expr := fun start =>
  match front : start.tokens with
  | [] =>
    match start.problem with
    | some problem => .error (start.misread problem)
    | none => .ok ⟨operand, start, Nat.le_refl _⟩
  | lexeme :: rest =>
    if lexeme.token = .pipe then
      match filterStep (start.behind lexeme rest) with
      | .error e => .error e
      | .ok step =>
        have shorter := Nat.lt_of_le_of_lt step.within (Pending.behind_size front)
        match filters first (.filter step.value.1 operand step.value.2 (first.upTo step.next.last)) step.next with
        | .error e => .error e
        | .ok all => .ok ⟨all.value, all.next, Nat.le_trans all.within (Nat.le_of_lt shorter)⟩
    else .ok ⟨operand, start, Nat.le_refl _⟩
termination_by start => start.size

/-- The name of a path segment. -/
def segmentName : Token → Option String
  | .word name => some name
  | .int i => some (toString i)
  | _ => none

/-- Path segments after an operand. -/
def segments (first : Span) (operand : Expr) : Parse Expr := fun start =>
  match front : start.tokens with
  | [] =>
    match start.problem with
    | some problem => .error (start.misread problem)
    | none => .ok ⟨operand, start, Nat.le_refl _⟩
  | lexeme :: rest =>
    if lexeme.token = .dot then
      match expect "path segment" segmentName (start.behind lexeme rest) with
      | .error e => .error e
      | .ok step =>
        have shorter := Nat.lt_of_le_of_lt step.within (Pending.behind_size front)
        match segments first (.member operand step.value.1 (first.upTo step.next.last)) step.next with
        | .error e => .error e
        | .ok all => .ok ⟨all.value, all.next, Nat.le_trans all.within (Nat.le_of_lt shorter)⟩
    else .ok ⟨operand, start, Nat.le_refl _⟩
termination_by start => start.size

/-- The value of a token that stands for one. -/
def literal? : Token → Option Value
  | .word "true" | .word "True" => some (.bool true)
  | .word "false" | .word "False" => some (.bool false)
  | .word "null" | .word "none" | .word "None" => some .none
  | .plainString s | .escapedString s => some (.str s)
  | .int i => some (.int i)
  | .float x => some (.float x)
  | _ => none

/-- A literal, a variable or an expression in parentheses, with the path segments after it. -/
def atom (inner : Parse Expr) : Parse Expr := do
  let lexeme ← take "expression"
  match literal? lexeme.token with
  | some value => segments lexeme.span (.const value lexeme.span)
  | none =>
    match lexeme.token with
    | .word name => segments lexeme.span (.var name lexeme.span)
    | .parenOpen =>
      let expr ← inner
      let _ ← expectToken "`)`" .parenClose
      segments lexeme.span expr
    | token => fail (.unexpected token.description "expression")

def filtered (operand : Parse Expr) : Parse Expr := do
  let first ← nextSpan
  let inner ← operand
  filters first inner

def disjunction (operand : Parse Expr) : Parse Expr :=
  operation orOperator (operation andOperator (negation (operation comparison (filtered operand))))

mutual

def parse (levels : Nat) : Parse Expr :=
  match levels with
  | 0 => fail .tooNested
  | levels + 1 => disjunction (operand levels)

def operand (levels : Nat) : Parse Expr :=
  match levels with
  | 0 => fail .tooNested
  | levels + 1 => atom (parse levels)

end

/-- A bare dotted path. -/
def path (levels : Nat) : Parse Expr := do
  let expr ← operand levels
  if expr.isPath then return expr
  else fail (.bindingNoPath expr.description)

end TextTemplate.Expr
