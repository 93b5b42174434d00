import TextTemplate.Proofs.Syntax.Limits
import TextTemplate.Proofs.Syntax.Paths

/-!
What the limit on nested syntax keeps out. A template has fewer conditionals and parentheses in one another than
the limit, and a source that has more of them is none. Prefix operators take no level: there may be any number of
them in front of an operand.
-/
namespace TextTemplate

open Parse

namespace Stmt

mutual

/-- How many conditionals stand in one another. -/
def depth : Stmt → Nat
  | .conditional branches otherwise _ => max (branchesDepth branches) (otherwiseDepth otherwise) + 1
  | _ => 0

def bodyDepth : List Stmt → Nat
  | [] => 0
  | stmt :: rest => max stmt.depth (bodyDepth rest)

def branchesDepth : List (Expr × List Stmt) → Nat
  | [] => 0
  | (_, body) :: rest => max (bodyDepth body) (branchesDepth rest)

def otherwiseDepth : Option (List Stmt) → Nat
  | none => 0
  | some body => bodyDepth body

end

end Stmt

/-- How many conditionals stand in one another in a part of a template. -/
def Phrase.depth : Phrase → Nat
  | .statements all => Stmt.bodyDepth all
  | .tag stmt => stmt.depth
  | .branches all other => max (Stmt.branchesDepth all) (Stmt.otherwiseDepth other)

namespace Stmt

variable {source : List Char} {levels : Nat} {taken : List Lexeme}

theorem Tagged.depth {opening : Span} {stmt : Stmt} (tagged : Tagged source levels opening stmt taken) :
    stmt.depth = 0 := by
  cases tagged <;> rfl

/-- Each conditional takes a level from those in it. -/
theorem Spelled.depth_le {phrase : Phrase} (spelled : Spelled source levels phrase taken) : phrase.depth ≤ levels := by
  induction spelled with
  | done => exact Nat.zero_le _
  | text raw span _ ih => exact Nat.max_le.mpr ⟨Nat.zero_le _, ih⟩
  | tag opening tagged _ ih => exact Nat.max_le.mpr ⟨tagged.depth ▸ Nat.zero_le _, ih⟩
  | conditional opening keyword ending reads _ _ inner later => exact Nat.max_le.mpr ⟨Nat.succ_le_succ inner, later⟩
  | lastBranch ending opening keyword _ ih => exact Nat.max_le.mpr ⟨Nat.max_le.mpr ⟨ih, Nat.zero_le _⟩, Nat.zero_le _⟩
  | otherwise ending opening keyword ending' opening' keyword' _ _ ih last =>
    exact Nat.max_le.mpr ⟨Nat.max_le.mpr ⟨ih, Nat.zero_le _⟩, last⟩
  | anotherBranch ending opening keyword _ _ _ ih later =>
    obtain ⟨others, otherwise⟩ := Nat.max_le.mp later
    exact Nat.max_le.mpr ⟨Nat.max_le.mpr ⟨ih, others⟩, otherwise⟩

end Stmt

namespace Expr

/-- How many negations stand in one another. -/
def negations : Expr → Nat
  | .var .. | .const .. => 0
  | .member of _ _ => of.negations
  | .not operand _ => operand.negations + 1
  | .binary _ left right _ => max left.negations right.negations
  | .filter _ operand _ _ => operand.negations

theorem negations_bare (e : Expr) : e.bare.negations = e.negations := by
  induction e with
  | var | const => rfl
  | member of name span ih => exact ih
  | not operand span ih => exact congrArg (· + 1) ih
  | binary op left right span before behind => exact congrArg₂ max before behind
  | filter name operand argument span ih => exact ih

/-- A variable behind prefix operators. -/
def negated (e : Expr) : Nat → Expr
  | 0 => e
  | n + 1 => .not (e.negated n) {}

end Expr

/-- The prefix operators, `!` and the word `not`. -/
inductive Negation where
  | bang
  | word
  deriving DecidableEq, Repr

namespace Negation

def token : Negation → Token
  | bang => .bang
  | word => .word "not"

/-- An operator behind a blank. -/
def chars : Negation → List Char
  | bang => [' ', '!']
  | word => [' ', 'n', 'o', 't']

/-- A tag with a variable behind prefix operators. -/
def source (operators : List Negation) : String :=
  Template.tag (String.ofList (operators.flatMap chars ++ [' ', 'x', ' ']))

variable {cursor : Cursor} {more : List Char}

/-- Operators are cut one by one. -/
theorem cuts (operators : List Negation) (inTag : cursor.inTag = true)
    (front : cursor.rest = operators.flatMap chars ++ ' ' :: more) :
    cursor.Cuts (operators.map token) (' ' :: more) := by
  induction operators generalizing cursor with
  | nil =>
    have front : cursor.rest = ' ' :: more := front
    rw [← front]
    exact .refl inTag
  | cons operator operators ih =>
    -- the next operator or the variable stands behind a blank, too
    obtain ⟨rest, spaced⟩ : ∃ rest, operators.flatMap chars ++ ' ' :: more = ' ' :: rest := by
      cases operators with
      | nil => exact ⟨more, rfl⟩
      | cons next later => cases next <;> exact ⟨_, rfl⟩
    have first : cursor.Cuts [operator.token] (operators.flatMap chars ++ ' ' :: more) := by
      have front : cursor.rest = operator.chars ++ (operators.flatMap chars ++ ' ' :: more) := by
        rw [front, List.flatMap_cons, List.append_assoc]
      rw [spaced] at front ⊢
      cases operator with
      | bang =>
        have front : cursor.rest = [' '] ++ '!' :: (' ' :: rest) := front
        exact Cursor.cuts_piece inTag front Text.isTagSpace_blank rfl (by decide) (n := 0) rfl
      | word =>
        let not : Segment := .word "not" (by decide)
        have spelled : not.text.toList = ['n', 'o', 't'] := by simp [not, Segment.text]
        have front : cursor.rest = [' '] ++ (not.text.toList ++ ' ' :: rest) := by rw [front, spelled]; rfl
        exact not.cuts inTag front Text.isTagSpace_blank (by simp; decide)
          fun index => absurd index Bool.false_ne_true
    exact first.trans fun next inside here => ih inside here

theorem chars_unopened (operator : Negation) : ∀ c ∈ operator.chars, c ≠ '\x7b' := by
  cases operator <;> simp [chars]

theorem isNot_token (operator : Negation) : Expr.isNot operator.token = true := by
  cases operator <;> rfl

/-- Operators in front of the name of a variable spell as many negations of it. -/
theorem spelled (operators : List Negation) {name : String} (named : Expr.IsName name) :
    Expr.Spelled 0 .not (Expr.negated (.var name {}) operators.length) (operators.map token ++ [.word name]) := by
  induction operators with
  | nil => exact Expr.Spelled.loosened (.name named) (by decide)
  | cons operator operators ih => exact .not operator.isNot_token ih

theorem negations_negated (e : Expr) (n : Nat) : (e.negated n).negations = e.negations + n := by
  induction n with
  | zero => rfl
  | succ n ih => exact congrArg (· + 1) ih

/-- The tokens of a tag with operators in front of a variable. -/
theorem tokens_source (operators : List Negation) :
    (Source.lexemes (source operators)).problem = none ∧
      tokensOf (Source.lexemes (source operators)).tokens =
        .tagStart :: (operators.map token ++ [.word "x"] ++ [.tagEnd]) := by
  have unopened : ∀ c ∈ (String.ofList (operators.flatMap chars ++ [' ', 'x', ' '])).toList, c ≠ '\x7b' := by
    intro c found
    rw [String.toList_ofList] at found
    rcases List.mem_append.mp found with found | found
    · obtain ⟨operator, -, found⟩ := List.mem_flatMap.mp found
      exact operator.chars_unopened c found
    · have named : ∀ c ∈ [' ', 'x', ' '], c ≠ '\x7b' := by simp
      exact named c found
  obtain ⟨opening, inside, stepped, inTag, front⟩ :=
    Source.start_tag (Lexer.pairIndex?_of_not_mem fun found => unopened _ found rfl)
  have front : inside.rest = operators.flatMap chars ++ ' ' :: ['x', ' ', '\x7d', '\x7d'] := by
    rw [front, String.toList_ofList]
    simp
  have named (next : Cursor) (inTag : next.inTag = true) (here : next.rest = ' ' :: ['x', ' ', '\x7d', '\x7d']) :
      next.Cuts [.word "x"] [' ', '\x7d', '\x7d'] := by
    let name : Segment := .word "x" (by decide)
    have spelled : name.text.toList = ['x'] := by simp [name, Segment.text]
    have here : next.rest = [' '] ++ (name.text.toList ++ [' ', '\x7d', '\x7d']) := by rw [here, spelled]; rfl
    exact name.cuts inTag here Text.isTagSpace_blank (by simp; decide) fun index => absurd index Bool.false_ne_true
  exact Source.tokens_of_cuts [' '] Text.isTagSpace_blank stepped ((cuts operators inTag front).trans named)

/-- However many operators stand in front of a variable, they are read. -/
theorem parse_source (operators : List Negation) (name : String) :
    ∃ template value span, Template.parse (source operators) name = .ok template ∧
      template.children = [.output value span] ∧ value.negations = operators.length := by
  obtain ⟨whole, cut⟩ := tokens_source operators
  have named : Expr.IsName "x" := ⟨rfl, by decide⟩
  have reads : Expr.Spelled 0 .or (Expr.negated (.var "x" {}) operators.length)
      (operators.map token ++ [.word "x"]) := (spelled operators named).loosened (by decide)
  have free : ∀ keyword ∈ Stmt.keywords, (operators.map token ++ [Token.word "x"]).head? ≠ some (.word keyword) := by
    intro keyword listed first
    cases operators with
    | nil =>
      cases first
      exact absurd listed (by decide)
    | cons operator operators =>
      cases operator with
      | bang => cases first
      | word =>
        cases first
        exact absurd listed (by decide)
  obtain ⟨template, value, span, parsed, children, bare⟩ := Template.parse_tag whole cut reads (by decide) free name
  refine ⟨template, value, span, parsed, children, ?_⟩
  rw [← Expr.negations_bare, bare, Expr.negations_bare, negations_negated]
  exact Nat.zero_add _

end Negation

namespace Template

/-- With a higher limit a source would be read as the same tree, or fail alike, unless the limit is met. -/
theorem parse_cases {limit : Nat} (more : maxSyntaxLevels ≤ limit) (text name : String) :
    (∃ template, parse text name = .ok template ∧
      parseWithin limit text.toList (Source.start text) = .ok template ∧ (Source.start text).depth < maxSyntaxLevels) ∨
    (∃ misread, parse text name = .error { fault name misread with source := some text } ∧
      parseWithin limit text.toList (Source.start text) = .error misread) ∨
    ∃ line, parse text name = .error { fault name ⟨.tooNested, line⟩ with source := some text } ∧
      maxSyntaxLevels ≤ (Source.start text).depth + 1 := by
  have some : 0 < maxSyntaxLevels := by decide
  unfold parse
  rw [parseFrom_eq_parseWithin]
  obtain ⟨template, low, high, shallow⟩ | ⟨misread, low, high⟩ | ⟨line, low, deep⟩ :=
    parseWithin_cases some more text.toList (Source.start text)
  · rw [low]
    exact .inl ⟨template, rfl, high, shallow⟩
  · rw [low]
    exact .inr (.inl ⟨misread, rfl, high⟩)
  · rw [low]
    exact .inr (.inr ⟨line, rfl, deep⟩)

/-- A template has fewer levels of conditionals and parentheses than the limit, and no more conditionals in one
another. A source with more of them is none: the limit is met, or whatever the limit was, it would fail so. One
with fewer is read as with any higher limit. No prefix operator is counted, so that there may be any number of them. -/
theorem parse_limited (text name : String) :
    (∀ template, parse text name = .ok template →
      (Source.start text).depth < maxSyntaxLevels ∧ Stmt.bodyDepth template.children ≤ maxSyntaxLevels) ∧
    (maxSyntaxLevels ≤ (Source.start text).depth →
      (∃ line, parse text name = .error { fault name ⟨.tooNested, line⟩ with source := some text }) ∨
        ∀ limit, maxSyntaxLevels ≤ limit →
          ∃ misread, parse text name = .error { fault name misread with source := some text } ∧
            parseWithin limit text.toList (Source.start text) = .error misread) ∧
    ((Source.start text).depth + 1 < maxSyntaxLevels →
      ∀ limit, maxSyntaxLevels ≤ limit →
        parseFrom text.toList (Source.start text) = parseWithin limit text.toList (Source.start text)) ∧
    ∀ operators : List Negation, ∃ template value span, parse (Negation.source operators) name = .ok template ∧
      template.children = [.output value span] ∧ value.negations = operators.length := by
  refine ⟨?_, ?_, ?_, ?_⟩
  · intro template parsed
    constructor
    · obtain ⟨_, -, -, shallow⟩ | ⟨_, fails, -⟩ | ⟨_, fails, -⟩ := parse_cases (Nat.le_refl _) text name
      · exact shallow
      · cases fails.symm.trans parsed
      · cases fails.symm.trans parsed
    · obtain ⟨_, same, spelled⟩ | ⟨_, fails, -⟩ := parse_eq text name
      · obtain rfl := Except.ok.inj (same.symm.trans parsed)
        exact spelled.spelled.depth_le
      · cases fails.symm.trans parsed
  · intro deep
    by_cases met : ∃ line, parse text name = .error { fault name ⟨.tooNested, line⟩ with source := some text }
    · exact .inl met
    · refine .inr ?_
      intro limit more
      obtain ⟨_, -, -, shallow⟩ | fails | ⟨line, here, -⟩ := parse_cases more text name
      · omega
      · exact fails
      · exact absurd ⟨line, here⟩ met
  · intro shallow limit more
    have some : 0 < maxSyntaxLevels := by decide
    rw [parseFrom_eq_parseWithin]
    obtain ⟨template, low, high, -⟩ | ⟨misread, low, high⟩ | ⟨line, -, deep⟩ :=
      parseWithin_cases some more text.toList (Source.start text)
    · rw [low, high]
    · rw [low, high]
    · omega
  · intro operators
    exact Negation.parse_source operators name

/-- One prefix operator more than the limit. -/
theorem parse_limited_negations :
    let operators := List.replicate (maxSyntaxLevels + 1) Negation.bang
    ∃ template value span, parse (Negation.source operators) "t" = .ok template ∧
      template.children = [.output value span] ∧ maxSyntaxLevels < value.negations := by
  intro operators
  obtain ⟨template, value, span, parsed, children, negations⟩ := Negation.parse_source operators "t"
  refine ⟨template, value, span, parsed, children, ?_⟩
  rw [negations, List.length_replicate]
  exact Nat.lt_succ_self _

end Template

end TextTemplate
