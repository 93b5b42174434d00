import TextTemplate.Syntax.Expression

/-!
How expressions are spelled. Operators of one level group to the left, an operand of an operator is
of the level that binds tighter, and any expression may stand in parentheses. A tree is written with
parentheses around the operands that need them and nowhere else, which is its shortest spelling.
-/
namespace TextTemplate

/-- What an expression is put together with, from the loosest to the tightest. -/
inductive Level where
  | or
  | and
  | not
  | comparison
  | filter
  | path
  deriving DecidableEq, Repr

namespace Level

def rank : Level → Nat
  | or => 0
  | and => 1
  | not => 2
  | comparison => 3
  | filter => 4
  | path => 5

/-- The next tighter level, which the right operands of binary operators have. -/
def tighter : Level → Level
  | or => and
  | and => not
  | not => comparison
  | comparison => filter
  | filter | path => path

/-- The binary operators of a level. -/
def operator : Level → Expr.Operator
  | or => Expr.orOperator
  | and => Expr.andOperator
  | comparison => Expr.comparison
  | not | filter | path => fun _ => none

end Level

def BinaryOp.level : BinaryOp → Level
  | .or => .or
  | .and => .and
  | .eq | .ne | .lt | .lte | .gt | .gte => .comparison

def BinaryOp.token : BinaryOp → Token
  | .or => .orOr
  | .and => .andAnd
  | .eq => .eq
  | .ne => .ne
  | .lt => .lt
  | .lte => .lte
  | .gt => .gt
  | .gte => .gte

namespace Expr

def reservedWords : List String :=
  ["and", "or", "not"]

/-- Whether a word names a variable: it is neither a literal nor an operator. -/
def IsName (name : String) : Prop :=
  literal? (.word name) = none ∧ name ∉ reservedWords

/-- The tokens that spell an expression of a level, with no more than `nesting` parentheses around
one another. Its spans do not matter. -/
inductive Spelled : (nesting : Nat) → Level → Expr → List Token → Prop where
  | name {nesting : Nat} {name : String} {span : Span} :
    IsName name → Spelled nesting .path (.var name span) [.word name]
  | literal {nesting : Nat} {token : Token} {value : Value} {span : Span} :
    literal? token = some value → Spelled nesting .path (.const value span) [token]
  | group {nesting : Nat} {e : Expr} {tokens : List Token} :
    Spelled nesting .or e tokens → Spelled (nesting + 1) .path e (.parenOpen :: (tokens ++ [.parenClose]))
  | member {nesting : Nat} {of : Expr} {tokens : List Token} {token : Token} {name : String} {span : Span} :
    Spelled nesting .path of tokens → segmentName token = some name →
    Spelled nesting .path (.member of name span) (tokens ++ [.dot, token])
  | filter {nesting : Nat} {operand : Expr} {tokens : List Token} {name : String} {span : Span} :
    Spelled nesting .filter operand tokens →
    Spelled nesting .filter (.filter name operand none span) (tokens ++ [.pipe, .word name])
  | filterWith {nesting : Nat} {operand : Expr} {tokens : List Token} {token : Token} {name argument : String}
    {span : Span} :
    Spelled nesting .filter operand tokens → argumentText token = some argument →
    Spelled nesting .filter (.filter name operand (some argument) span)
      (tokens ++ [.pipe, .word name, .colon, token])
  | not {nesting : Nat} {operand : Expr} {tokens : List Token} {token : Token} {span : Span} :
    isNot token = true → Spelled nesting .not operand tokens →
    Spelled nesting .not (.not operand span) (token :: tokens)
  | binary {nesting : Nat} {level : Level} {op : BinaryOp} {left right : Expr} {before behind : List Token}
    {token : Token} {span : Span} :
    level.operator token = some op →
    Spelled nesting level left before → Spelled nesting level.tighter right behind →
    Spelled nesting level (.binary op left right span) (before ++ token :: behind)
  | loosen {nesting : Nat} {level : Level} {e : Expr} {tokens : List Token} :
    Spelled nesting level.tighter e tokens → Spelled nesting level e tokens

/-- An expression without its spans. -/
def bare : Expr → Expr
  | .var name _ => .var name {}
  | .const value _ => .const value {}
  | .member of name _ => .member of.bare name {}
  | .not operand _ => .not operand.bare {}
  | .binary op left right _ => .binary op left.bare right.bare {}
  | .filter name operand argument _ => .filter name operand.bare argument {}

/-- Whether an expression can be written: variables are named by words that mean nothing else, and a
token stands for each constant. -/
def Writable : Expr → Prop
  | .var name _ => IsName name
  | .const value _ => ∃ token, literal? token = some value
  | .member of _ _ => of.Writable
  | .not operand _ | .filter _ operand _ _ => operand.Writable
  | .binary _ left right _ => left.Writable ∧ right.Writable

/-- What an expression is put together with. -/
def level : Expr → Level
  | .var .. | .const .. | .member .. => .path
  | .filter .. => .filter
  | .not .. => .not
  | .binary op .. => op.level

/-- The token of a constant. -/
def constantToken : Value → Token
  | .bool true => .word "true"
  | .bool false => .word "false"
  | .int i => .int i
  | .float x => .float x
  | .str s => .plainString s
  | _ => .word "none"

/-- The tokens of an expression in a place for one of the given level. -/
def guarded (place own : Level) (tokens : List Token) : List Token :=
  if own.rank < place.rank then .parenOpen :: (tokens ++ [.parenClose]) else tokens

/-- The tokens that write an expression, with parentheses only where they are needed. -/
def tokens : Expr → List Token
  | .var name _ => [.word name]
  | .const value _ => [constantToken value]
  | .member of name _ => guarded .path of.level of.tokens ++ [.dot, .word name]
  | .filter name operand none _ => guarded .filter operand.level operand.tokens ++ [.pipe, .word name]
  | .filter name operand (some argument) _ =>
    guarded .filter operand.level operand.tokens ++ [.pipe, .word name, .colon, .plainString argument]
  | .not operand _ => .bang :: guarded .not operand.level operand.tokens
  | .binary op left right _ =>
    guarded op.level left.level left.tokens ++
      op.token :: guarded op.level.tighter right.level right.tokens

/-- How many parentheses an operand in a place of the given level stands in. -/
def guardedNesting (place own : Level) (nesting : Nat) : Nat :=
  if own.rank < place.rank then nesting + 1 else nesting

/-- How many of the parentheses that are needed stand around one another. -/
def nesting : Expr → Nat
  | .var .. | .const .. => 0
  | .member of _ _ => guardedNesting .path of.level of.nesting
  | .filter _ operand _ _ => guardedNesting .filter operand.level operand.nesting
  | .not operand _ => guardedNesting .not operand.level operand.nesting
  | .binary op left right _ =>
    max (guardedNesting op.level left.level left.nesting)
      (guardedNesting op.level.tighter right.level right.nesting)

end Expr

theorem Level.tighter_of_rank_lt {place own : Level} (looser : place.rank < own.rank) :
    place.tighter.rank = place.rank + 1 := by
  cases place <;> cases own <;> first | rfl | simp [rank] at looser

theorem Level.rank_injective {a b : Level} (same : a.rank = b.rank) : a = b := by
  cases a <;> cases b <;> first | rfl | simp [rank] at same

theorem Level.level_of_operator {level : Level} {token : Token} {op : BinaryOp}
    (found : level.operator token = some op) : op.level = level := by
  cases level with
  | or =>
    simp only [operator, Expr.orOperator] at found
    split at found <;> cases found <;> rfl
  | and =>
    simp only [operator, Expr.andOperator] at found
    split at found <;> cases found <;> rfl
  | comparison =>
    simp only [operator, Expr.comparison] at found
    split at found <;> cases found <;> rfl
  | not | filter | path => cases found

theorem Level.operator_token (op : BinaryOp) : op.level.operator op.token = some op := by
  cases op <;> rfl

namespace Expr

variable {nesting : Nat} {level place own : Level} {e : Expr} {spelling : List Token}

theorem Spelled.more {room : Nat} (spelled : Spelled nesting level e spelling) (enough : nesting ≤ room) :
    Spelled room level e spelling := by
  induction spelled generalizing room with
  | name named => exact .name named
  | literal stands => exact .literal stands
  | group _ ih =>
    obtain ⟨room, rfl⟩ := Nat.exists_eq_add_of_lt enough
    exact .group (ih (by omega))
  | member _ segment ih => exact .member (ih enough) segment
  | filter _ ih => exact .filter (ih enough)
  | filterWith _ argument ih => exact .filterWith (ih enough) argument
  | not negates _ ih => exact .not negates (ih enough)
  | binary operates _ _ left right => exact .binary operates (left enough) (right enough)
  | loosen _ ih => exact .loosen (ih enough)

/-- What may stand in a place may stand in a looser one. -/
theorem Spelled.loosened (spelled : Spelled nesting own e spelling) (looser : place.rank ≤ own.rank) :
    Spelled nesting place e spelling := by
  obtain ⟨distance, far⟩ := Nat.exists_eq_add_of_le looser
  induction distance generalizing place with
  | zero =>
    obtain rfl := Level.rank_injective far
    exact spelled
  | succ distance ih =>
    have next : place.tighter.rank = place.rank + 1 := Level.tighter_of_rank_lt (show _ < own.rank by omega)
    exact .loosen (ih (by omega) (by omega))

theorem Spelled.guarded (spelled : Spelled nesting own e spelling) (place : Level) :
    Spelled (guardedNesting place own nesting) place e (guarded place own spelling) := by
  unfold guardedNesting Expr.guarded
  split
  · have inner : Spelled nesting .or e spelling := spelled.loosened (Nat.zero_le _)
    exact .loosened (.group inner) (by cases place <;> decide)
  · exact spelled.loosened (by omega)

theorem literal?_constantToken {token : Token} {value : Value} (stands : literal? token = some value) :
    literal? (constantToken value) = some value := by
  unfold literal? at stands
  split at stands <;> cases stands <;> rfl

/-- An expression that can be written is spelled by its tokens. -/
theorem spelled_tokens (writable : e.Writable) : Spelled e.nesting e.level e e.tokens := by
  induction e with
  | var name span => exact .name writable
  | const value span =>
    obtain ⟨token, stands⟩ := writable
    exact .literal (literal?_constantToken stands)
  | member of name span ih => exact .member ((ih writable).guarded .path) rfl
  | not operand span ih => exact .not rfl ((ih writable).guarded .not)
  | binary op left right span before behind =>
    have left := (before writable.1).guarded op.level
    have right := (behind writable.2).guarded op.level.tighter
    exact .binary (Level.operator_token op) (left.more (Nat.le_max_left ..)) (right.more (Nat.le_max_right ..))
  | filter name operand argument span ih =>
    have inner := (ih writable).guarded .filter
    cases argument with
    | none => exact .filter inner
    | some argument => exact .filterWith inner rfl

theorem length_guarded (place own : Level) (spelling : List Token) :
    (guarded place own spelling).length = spelling.length + if own.rank < place.rank then 2 else 0 := by
  unfold guarded
  split <;> simp

/-- No spelling has fewer tokens, or fewer parentheses around one another. -/
theorem Spelled.shortest (spelled : Spelled nesting place e spelling) :
    (Expr.guarded place e.level e.tokens).length ≤ spelling.length ∧
      guardedNesting place e.level e.nesting ≤ nesting := by
  induction spelled with
  | name | literal => simp [Expr.guarded, guardedNesting, Expr.level, Expr.tokens, Expr.nesting]
  | @group nesting e spelling _ ih =>
    have loosest : Level.or.rank = 0 := rfl
    simp only [length_guarded, guardedNesting, loosest, Nat.not_lt_zero, if_false] at ih
    simp only [length_guarded, guardedNesting, List.length_cons, List.length_append, List.length_nil]
    split <;> omega
  | member _ _ ih =>
    simpa [Expr.guarded, guardedNesting, Expr.level, Expr.tokens, Expr.nesting] using ih
  | filter _ ih => simpa [Expr.guarded, guardedNesting, Expr.level, Expr.tokens, Expr.nesting] using ih
  | filterWith _ _ ih => simpa [Expr.guarded, guardedNesting, Expr.level, Expr.tokens, Expr.nesting] using ih
  | not _ _ ih => simpa [Expr.guarded, guardedNesting, Expr.level, Expr.tokens, Expr.nesting] using ih
  | binary operates _ _ left right =>
    obtain rfl := Level.level_of_operator operates
    simp only [length_guarded, guardedNesting, Expr.level, Expr.tokens, Expr.nesting, Nat.lt_irrefl, if_false,
      List.length_append, List.length_cons] at left right ⊢
    omega
  | @loosen nesting place e spelling _ ih =>
    have looser : place.rank ≤ place.tighter.rank := by cases place <;> decide
    simp only [length_guarded, guardedNesting] at ih ⊢
    split <;> split at ih <;> omega

theorem Spelled.writable (spelled : Spelled nesting place e spelling) : e.Writable := by
  induction spelled with
  | name named => exact named
  | literal stands => exact ⟨_, stands⟩
  | group _ ih | member _ _ ih | filter _ ih | filterWith _ _ ih | not _ _ ih | loosen _ ih => exact ih
  | binary _ _ _ left right => exact ⟨left, right⟩

end Expr

/-- What may come next in an expression. In front of the operand of a comparison no negation may
stand; a name or the argument of a filter stands behind its mark. -/
inductive Expected where
  | operand (negatable : Bool)
  | operator
  | name

namespace Expected

def after : Expected → Token → Expected
  | .operand _, .parenOpen => .operand true
  | .operand negatable, token => if negatable && Expr.isNot token then .operand true else .operator
  | .operator, .dot | .operator, .pipe | .operator, .colon => .name
  | .operator, .parenClose => .operator
  | .operator, token => .operand (Expr.comparison token).isNone
  | .name, _ => .operator

/-- What may come behind some tokens. -/
def behind (place : Expected) (tokens : List Token) : Expected :=
  tokens.foldl after place

/-- Whether a token is a reserved word where an operand is expected. -/
def reserves : Expected → Token → Bool
  | .operand negatable, .word w => Expr.reservedWords.contains w && !(negatable && Expr.isNot (.word w))
  | _, _ => false

/-- Whether a reserved word stands where an operand is expected. -/
def reserved (place : Expected) : List Token → Bool
  | [] => false
  | token :: tokens => place.reserves token || (place.after token).reserved tokens

@[simp]
theorem behind_nil (place : Expected) : place.behind [] = place := rfl

@[simp]
theorem behind_cons (place : Expected) (token : Token) (tokens : List Token) :
    place.behind (token :: tokens) = (place.after token).behind tokens := rfl

@[simp]
theorem behind_append (place : Expected) (a b : List Token) : place.behind (a ++ b) = (place.behind a).behind b :=
  List.foldl_append ..

@[simp]
theorem reserved_append (place : Expected) (a b : List Token) :
    place.reserved (a ++ b) = (place.reserved a || (place.behind a).reserved b) := by
  induction a generalizing place with
  | nil => rfl
  | cons token a ih => rw [List.cons_append, reserved, reserved, ih, behind_cons, Bool.or_assoc]

/-- A token that negates nothing is read alike whether or not a negation may stand there. -/
theorem operand_congr {token : Token} (plain : Expr.isNot token = false) (a b : Bool) :
    (operand a).after token = (operand b).after token ∧ (operand a).reserves token = (operand b).reserves token := by
  constructor
  · unfold after
    split <;> simp_all
  · unfold reserves
    cases token <;> simp_all

@[simp]
theorem operator_reserves (token : Token) : operator.reserves token = false := by
  cases token <;> rfl

@[simp]
theorem name_reserves (token : Token) : name.reserves token = false := by
  cases token <;> rfl

end Expected

/-- Whether a negation may stand in a place for the level. -/
def Level.negatable (level : Level) : Bool :=
  level.rank ≤ Level.not.rank

/-- Behind a binary operator stands an operand of the next tighter level. -/
theorem Level.after_operator {level : Level} {token : Token} {op : BinaryOp} (found : level.operator token = some op) :
    Expected.operator.after token = .operand level.tighter.negatable := by
  cases level with
  | or =>
    simp only [operator, Expr.orOperator] at found
    split at found <;> cases found <;> rfl
  | and =>
    simp only [operator, Expr.andOperator] at found
    split at found <;> cases found <;> rfl
  | comparison =>
    simp only [operator, Expr.comparison] at found
    split at found <;> cases found <;> rfl
  | not | filter | path => cases found

namespace Expr

variable {nesting : Nat} {level : Level} {e : Expr} {spelling : List Token}

/-- No expression tighter than a negation starts with one. -/
theorem Spelled.head (spelled : Spelled nesting level e spelling) (tight : level.negatable = false) :
    ∃ token rest, spelling = token :: rest ∧ isNot token = false := by
  induction spelled with
  | @name _ name _ named =>
    refine ⟨_, _, rfl, ?_⟩
    unfold isNot
    split
    · cases ‹_›
    · rename_i same
      cases same
      exact absurd named.2 (by decide)
    · rfl
  | literal stands =>
    refine ⟨_, _, rfl, ?_⟩
    unfold isNot
    split
    · cases stands
    · cases stands
    · rfl
  | group => exact ⟨_, _, rfl, rfl⟩
  | member _ _ ih | filter _ ih | filterWith _ _ ih | binary _ _ _ ih =>
    obtain ⟨token, rest, rfl, plain⟩ := ih tight
    exact ⟨token, _, rfl, plain⟩
  | not => cases tight
  | @loosen _ level _ _ _ ih =>
    refine ih ?_
    cases level <;> first | rfl | cases tight

/-- In a spelling, no reserved word stands where an operand is expected. -/
theorem Spelled.unreserved (spelled : Spelled nesting level e spelling) :
    (Expected.operand level.negatable).behind spelling = .operator ∧
      (Expected.operand level.negatable).reserved spelling = false := by
  induction spelled with
  | @name _ name _ named =>
    refine ⟨rfl, ?_⟩
    simp [Expected.reserved, Expected.reserves, named.2]
  | literal stands =>
    unfold literal? at stands
    split at stands <;> first | exact ⟨rfl, by decide⟩ | exact ⟨rfl, rfl⟩ | cases stands
  | @group _ _ spelling _ ih =>
    have opens : (Expected.operand Level.path.negatable).after .parenOpen = .operand Level.or.negatable := rfl
    have free : (Expected.operand Level.path.negatable).reserves .parenOpen = false := rfl
    refine ⟨?_, ?_⟩
    · rw [Expected.behind_cons, Expected.behind_append, opens, ih.1]
      rfl
    · rw [Expected.reserved, Expected.reserved_append, opens, free, ih.1, ih.2]
      rfl
  | member _ _ ih =>
    simp [ih.1, ih.2, Expected.after, Expected.reserved]
  | filter _ ih =>
    simp [ih.1, ih.2, Expected.after, Expected.reserved]
  | filterWith _ _ ih =>
    simp [ih.1, ih.2, Expected.after, Expected.reserved]
  | @not _ _ _ token _ negates _ ih =>
    have opens : (Expected.operand Level.not.negatable).after token = .operand Level.not.negatable ∧
        (Expected.operand Level.not.negatable).reserves token = false := by
      unfold isNot at negates
      split at negates <;> first | exact ⟨rfl, rfl⟩ | cases negates
    refine ⟨?_, ?_⟩
    · rw [Expected.behind_cons, opens.1, ih.1]
    · rw [Expected.reserved, opens.1, opens.2, ih.2]
      rfl
  | binary operates _ _ left right =>
    have after := Level.after_operator operates
    simp [Expected.reserved, left.1, left.2, after, right.1, right.2]
  | @loosen _ level e spelling tight ih =>
    by_cases switches : level.tighter.negatable = level.negatable
    · rwa [switches] at ih
    · have plain : level.tighter.negatable = false := by
        cases level <;> first | rfl | exact absurd rfl switches
      obtain ⟨token, rest, rfl, plain⟩ := tight.head plain
      obtain ⟨after, free⟩ := Expected.operand_congr plain level.negatable level.tighter.negatable
      rw [Expected.behind_cons, Expected.reserved] at ih ⊢
      rw [after, free]
      exact ih

end Expr

end TextTemplate
