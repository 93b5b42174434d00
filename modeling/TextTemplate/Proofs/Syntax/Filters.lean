import TextTemplate.Proofs.Syntax.Literals
import TextTemplate.Proofs.Syntax.Paths

/-!
Filters behind a variable as they are written in a tag. The steps stand in their order, each with its
name and at most one argument, and are read as a tree that leans to the left.
-/
namespace TextTemplate

/-- A filter in a tag, with the text of its argument. -/
structure FilterStep where
  name : String
  argument : Option String

namespace FilterStep

/-- The tokens that spell steps, whose arguments are texts or numbers. -/
inductive Spelled : List FilterStep → List Token → Prop
  | nil : Spelled [] []
  | plain {name : String} {steps : List FilterStep} {tokens : List Token} (later : Spelled steps tokens) :
    Spelled (⟨name, none⟩ :: steps) (.pipe :: .word name :: tokens)
  | argued {name argument : String} {token : Token} {steps : List FilterStep} {tokens : List Token}
    (text : Expr.argumentText token = some argument) (later : Spelled steps tokens) :
    Spelled (⟨name, some argument⟩ :: steps) (.pipe :: .word name :: .colon :: token :: tokens)

end FilterStep

/-- An expression with filters behind it, the first one innermost. -/
def Expr.piped (e : Expr) (steps : List FilterStep) : Expr :=
  steps.foldl (fun e step => .filter step.name e step.argument {}) e

theorem Expr.Spelled.piped {nesting : Nat} {e : Expr} {before tokens : List Token} {steps : List FilterStep}
    (spelled : Expr.Spelled nesting .filter e before) (behind : FilterStep.Spelled steps tokens) :
    Expr.Spelled nesting .filter (e.piped steps) (before ++ tokens) := by
  induction behind generalizing e before with
  | nil => rwa [List.append_nil]
  | @plain name _ _ _ ih =>
    have longer := ih (e := .filter name e none {}) spelled.filter
    rwa [List.append_assoc] at longer
  | @argued name argument _ _ _ text _ ih =>
    have longer := ih (e := .filter name e (some argument) {}) (spelled.filterWith text)
    rwa [List.append_assoc] at longer

/-- A source that is one tag: a variable with filters behind it, however they are spaced and quoted. -/
structure IsFilterTag (source name : String) (steps : List FilterStep) : Prop where
  isName : Expr.IsName name
  noKeyword : name ∉ Stmt.keywords
  whole : (Source.lexemes source).problem = none
  tokens : ∃ tokens, FilterStep.Spelled steps tokens ∧
    tokensOf (Source.lexemes source).tokens = .tagStart :: .word name :: (tokens ++ [.tagEnd])

/-- A tag of filters is read as one output, with the filters in their order. -/
theorem IsFilterTag.parse {source name : String} {steps : List FilterStep} (tag : IsFilterTag source name steps)
    (template : String) : ∃ parsed value span, Template.parse source template = .ok parsed ∧
      parsed.children = [.output value span] ∧ value.bare = (Expr.piped (.var name {}) steps).bare := by
  obtain ⟨tokens, spelled, cut⟩ := tag.tokens
  have operand : Expr.Spelled 0 .path (.var name {}) [.word name] := .name tag.isName
  have reads : Expr.Spelled 0 .or (Expr.piped (.var name {}) steps) (.word name :: tokens) :=
    ((operand.loosened (by decide)).piped spelled).loosened (by decide)
  refine Template.parse_tag tag.whole cut reads (by decide) ?_ template
  rintro _ found ⟨⟩
  exact tag.noKeyword found

namespace FilterStep

/-- A step that can be written: its name is a word, and no two opening braces in its argument start
another tag. -/
structure Writable (step : FilterStep) : Prop where
  isWord : Lexer.isWord step.name = true
  apart : ∀ text ∈ step.argument, Lexer.pairIndex? '\x7b' text.toList = none

/-- The characters of an argument, between quotes. -/
def argumentChars : Option String → List Char
  | none => []
  | some text => ':' :: '\x27' :: (Lexer.escaped text.toList ++ ['\x27'])

def chars (step : FilterStep) : List Char :=
  '|' :: (step.name.toList ++ argumentChars step.argument)

def allChars (steps : List FilterStep) : List Char :=
  steps.flatMap chars

/-- The tag that pipes a variable through steps. -/
def source (name : String) (steps : List FilterStep) : String :=
  Template.tag (String.ofList (' ' :: (name.toList ++ (allChars steps ++ [' ']))))

section Cutting

open Cursor

variable {cursor : Cursor} {step : FilterStep} {steps : List FilterStep} {behind more : List Char}

theorem cuts_operator {c : Char} {cs : List Char} {token : Token} (inTag : cursor.inTag = true)
    (front : cursor.rest = c :: cs) (solid : Text.isTagSpace c = false) (goesOn : c ≠ '\x7d')
    (alone : cs.head?.bind (Lexer.pairOperator? c) = none) (single : Lexer.singleOperator? c = some token) :
    cursor.Cuts [token] cs :=
  have front : cursor.rest = [] ++ c :: cs := front
  cuts_piece inTag front (by simp) solid goesOn (n := 0) (Lexer.tagPiece_operator alone single)

/-- A quoted argument is cut as a token for its text. -/
theorem cuts_quoted (text : String) (behind : List Char) :
    ∃ token, Expr.argumentText token = some text ∧ ∀ cursor : Cursor, cursor.inTag = true →
      cursor.rest = '\x27' :: (Lexer.escaped text.toList ++ '\x27' :: behind) → cursor.Cuts [token] behind := by
  have read := Lexer.argumentText_quotedToken text.toList (Lexer.escaped text.toList)
  rw [String.ofList_toList] at read
  exact ⟨_, read, fun _ => Cursor.cuts_quoted (Lexer.quoted_escaped text.toList) (.inl rfl)⟩

/-- A step is cut as tokens that spell it. -/
theorem cuts (writable : step.Writable) (boundary : ∀ d ∈ behind.head?, Lexer.isWordChar d = false) :
    ∃ tokens, (∀ {steps rest}, Spelled steps rest → Spelled (step :: steps) (tokens ++ rest)) ∧
      ∀ cursor : Cursor, cursor.inTag = true → cursor.rest = step.chars ++ behind → cursor.Cuts tokens behind := by
  obtain ⟨name, argument⟩ := step
  obtain ⟨c, cs, spelled, starts, -⟩ := Lexer.isWord_cases writable.isWord
  have alone : (name.toList ++ (argumentChars argument ++ behind)).head?.bind (Lexer.pairOperator? '|') = none := by
    have noPipe : c ≠ '|' := by
      rintro rfl
      cases starts
    rw [show name.toList = c :: cs from spelled]
    show Lexer.pairOperator? '|' c = none
    unfold Lexer.pairOperator?
    split <;> simp_all
  have pipe (cursor : Cursor) (inTag : cursor.inTag = true)
      (front : cursor.rest = chars ⟨name, argument⟩ ++ behind) :
      cursor.Cuts [.pipe] (name.toList ++ (argumentChars argument ++ behind)) := by
    have front : cursor.rest = '|' :: (name.toList ++ (argumentChars argument ++ behind)) := by
      rw [front, chars, List.cons_append, List.append_assoc]
    exact cuts_operator inTag front rfl (by decide) alone rfl
  have named (next : Cursor) (inTag : next.inTag = true)
      (here : next.rest = name.toList ++ (argumentChars argument ++ behind)) :
      next.Cuts [.word name] (argumentChars argument ++ behind) := by
    have here : next.rest =
        [] ++ ((Segment.word name writable.isWord).text.toList ++ (argumentChars argument ++ behind)) := here
    refine (Segment.word name writable.isWord).cuts inTag here (by simp) ?_ (by rintro ⟨⟩)
    cases argument with
    | none => exact boundary
    | some text =>
      rintro d ⟨⟩
      rfl
  cases argument with
  | none => exact ⟨[.pipe, .word name], .plain, fun cursor inTag front => (pipe cursor inTag front).trans named⟩
  | some text =>
    obtain ⟨token, read, quoted⟩ := cuts_quoted text behind
    have front' : argumentChars (some text) ++ behind =
        ':' :: '\x27' :: (Lexer.escaped text.toList ++ '\x27' :: behind) := by
      simp [argumentChars]
    rw [front'] at pipe named
    have colon (next : Cursor) (inTag : next.inTag = true)
        (here : next.rest = ':' :: '\x27' :: (Lexer.escaped text.toList ++ '\x27' :: behind)) :
        next.Cuts [.colon] ('\x27' :: (Lexer.escaped text.toList ++ '\x27' :: behind)) :=
      cuts_operator inTag here rfl (by decide) rfl rfl
    refine ⟨[.pipe, .word name, .colon, token], .argued read, fun cursor inTag front => ?_⟩
    refine (pipe cursor inTag front).trans fun _ inTag here => ?_
    exact (named _ inTag here).trans fun _ inTag here => (colon _ inTag here).trans quoted

/-- Steps in front of a blank end what stands before them. -/
theorem allChars_boundary (steps : List FilterStep) (more : List Char) :
    ∀ d ∈ (allChars steps ++ ' ' :: more).head?, Lexer.isWordChar d = false := by
  cases steps <;> rintro d ⟨⟩ <;> rfl

/-- Steps are cut one by one. -/
theorem cuts_all (writable : ∀ step ∈ steps, step.Writable) (more : List Char) :
    ∃ tokens, Spelled steps tokens ∧ ∀ cursor : Cursor, cursor.inTag = true →
      cursor.rest = allChars steps ++ ' ' :: more → cursor.Cuts tokens (' ' :: more) := by
  induction steps with
  | nil =>
    refine ⟨[], .nil, fun cursor inTag front => ?_⟩
    have front : cursor.rest = ' ' :: more := front
    exact front ▸ .refl inTag
  | cons step steps ih =>
    obtain ⟨first, rest⟩ := List.forall_mem_cons.mp writable
    obtain ⟨later, spelled, cutsLater⟩ := ih rest
    obtain ⟨tokens, spells, cutsFirst⟩ := cuts first (allChars_boundary steps more)
    refine ⟨tokens ++ later, spells spelled, fun cursor inTag front => ?_⟩
    have front : cursor.rest = step.chars ++ (allChars steps ++ ' ' :: more) := by
      rw [front, allChars, allChars, List.flatMap_cons, List.append_assoc]
    exact (cutsFirst cursor inTag front).trans cutsLater

end Cutting

section Opening

variable {step : FilterStep} {steps : List FilterStep}

end Opening

end FilterStep

end TextTemplate
