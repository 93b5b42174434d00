import Mathlib.Data.List.DropRight
import TextTemplate.Proofs.Decimal.Shortest
import TextTemplate.Proofs.Syntax.Filters
import TextTemplate.Proofs.Syntax.Joining

/-!
Literals as they are written in a tag. What a tag of its own holds as one text or number is cut in the
same way behind a variable as the argument of a filter: inside of a tag, neither the place nor the
blanks in front of it make a difference.
-/
namespace TextTemplate

namespace Cursor

/-- What is cut depends on what is left of the source, not on the place. -/
theorem tokens_of_rest {one two : Cursor} (inTag : one.inTag = two.inTag) (rest : one.rest = two.rest) :
    tokensOf one.lexemes.tokens = tokensOf two.lexemes.tokens ∧ one.lexemes.problem = two.lexemes.problem := by
  have moved (cursor : Cursor) : cursor.lexemes =
      (⟨cursor.inTag, {}, cursor.rest⟩ : Cursor).lexemes.map cursor.position.beyond := by
    have follows : Position.Follows cursor.position.beyond {} := Position.beyond_follows _ (Nat.le_refl 1)
    rw [← lexemes_map follows]
    obtain ⟨inTag, ⟨line, column, offset⟩, rest⟩ := cursor
    rfl
  rw [moved one, moved two, inTag, rest]
  refine ⟨?_, rfl⟩
  simp [Lexemes.map, tokensOf, Function.comp_def]

theorem rest_skipBlanks (cursor : Cursor) : cursor.skipBlanks.rest = cursor.rest.dropWhile Text.isTagSpace := by
  have split := List.takeWhile_append_dropWhile (p := Text.isTagSpace) (l := cursor.rest)
  exact (List.append_cancel_left (split.trans cursor.skipBlanks_rest.1)).symm

theorem skipBlanks_skipBlanks (cursor : Cursor) : cursor.skipBlanks.skipBlanks = cursor.skipBlanks := by
  have none : cursor.skipBlanks.rest.takeWhile Text.isTagSpace = [] := by
    have split := List.takeWhile_append_dropWhile (p := Text.isTagSpace) (l := cursor.skipBlanks.rest)
    rw [rest_skipBlanks, List.dropWhile_idempotent] at split
    rw [rest_skipBlanks]
    exact List.append_left_eq_self.mp split
  unfold skipBlanks at none ⊢
  rw [none]
  rfl

theorem step_skipBlanks {cursor : Cursor} (inTag : cursor.inTag = true) : cursor.skipBlanks.step = cursor.step := by
  have stays : cursor.skipBlanks.inTag = true := inTag
  rw [step, step, if_pos stays, if_pos inTag, stepInTag, stepInTag, skipBlanks_skipBlanks]

theorem lexemes_of_step {one two : Cursor} (same : one.step = two.step) : one.lexemes = two.lexemes := by
  rw [lexemes, lexemes]
  split <;> split <;> simp_all

/-- Blanks in front make no difference inside of a tag. -/
theorem tokens_of_dropWhile {one two : Cursor} (inTag : one.inTag = true) (inTag' : two.inTag = true)
    (rest : one.rest.dropWhile Text.isTagSpace = two.rest.dropWhile Text.isTagSpace) :
    tokensOf one.lexemes.tokens = tokensOf two.lexemes.tokens ∧ one.lexemes.problem = two.lexemes.problem := by
  rw [lexemes_of_step (step_skipBlanks inTag).symm, lexemes_of_step (step_skipBlanks inTag').symm]
  refine tokens_of_rest ?_ ?_
  · exact inTag.trans inTag'.symm
  · rw [rest_skipBlanks, rest_skipBlanks, rest]

theorem cuts_word {word : String} (isWord : Lexer.isWord word = true) {cursor : Cursor} (inTag : cursor.inTag = true)
    {behind : List Char} (front : cursor.rest = word.toList ++ behind)
    (boundary : ∀ d ∈ behind.head?, Lexer.isWordChar d = false) : cursor.Cuts [.word word] behind := by
  have front : cursor.rest = [] ++ ((Segment.word word isWord).text.toList ++ behind) := front
  exact (Segment.word word isWord).cuts inTag front (by simp) boundary (by rintro ⟨⟩)

end Cursor

namespace Lexer

theorem pairOperator?_ne_float {c d : Char} {x : Binary64} : pairOperator? c d ≠ some (.float x) := by
  unfold pairOperator?
  split <;> rintro ⟨⟩

theorem singleOperator?_ne_float {c : Char} {x : Binary64} : singleOperator? c ≠ some (.float x) := by
  unfold singleOperator?
  split <;> rintro ⟨⟩

theorem stringToken_ne_float {body : List Char} {x : Binary64} : stringToken body ≠ .ok (.float x) := by
  unfold stringToken
  repeat' split
  all_goals rintro ⟨⟩

theorem held_numberToken {cs : List Char} {x : Binary64} (found : numberToken cs = .ok (.float x)) : x.Held := by
  unfold numberToken at found
  dsimp only at found
  split at found
  · split at found <;> cases found
  · split at found
    · rename_i decimal _
      cases found
      exact decimal.held_toBinary64 false
    · cases found

theorem held_tagPiece {c : Char} {cs : List Char} {x : Binary64} (found : (tagPiece c cs).found = .ok (.float x)) :
    x.Held := by
  unfold tagPiece at found
  split at found
  · rename_i operator
    obtain ⟨d, -, pair⟩ := Option.bind_eq_some_iff.mp operator
    cases found
    exact absurd pair pairOperator?_ne_float
  split at found
  · rename_i operator
    cases found
    exact absurd operator singleOperator?_ne_float
  split at found
  · split at found
    · exact absurd found stringToken_ne_float
    · cases found
  split at found
  · exact held_numberToken found
  · split at found <;> cases found

variable {a body : List Char}

/-- Whether a tag opens does not depend on what stands in front of the first brace. -/
theorem opensTag_append_of_plain (plain : ∀ d ∈ a, d ≠ '\x7b' ∧ d ≠ '\x7d') (body : List Char) :
    opensTag (a ++ body) = opensTag body := by
  induction a with
  | nil => rfl
  | cons d a ih =>
    obtain ⟨⟨opening, closing⟩, plain⟩ := List.forall_mem_cons.mp plain
    rw [← ih plain, List.cons_append, opensTag, opensTag, pairIndex?_cons_of_ne closing]
    cases pairIndex? '\x7d' (a ++ body) with
    | none => rfl
    | some stop =>
      dsimp only [Option.map_some]
      rw [List.take_succ_cons, pairIndex?_cons_of_ne opening, Option.isNone_map]

end Lexer

namespace Cursor

theorem held_step {cursor next : Cursor} {lexeme : Lexeme} (stepped : cursor.step = .lexeme lexeme next)
    {x : Binary64} (token : lexeme.token = .float x) : x.Held := by
  unfold step at stepped
  split at stepped
  · unfold stepInTag at stepped
    dsimp only at stepped
    split at stepped
    · cases stepped
    split at stepped
    · cases stepped
      cases token
    split at stepped
    · rename_i found
      cases stepped
      cases token
      exact Lexer.held_tagPiece found
    · cases stepped
  · unfold stepInText at stepped
    split at stepped
    · cases stepped
    dsimp only at stepped
    split at stepped
    all_goals
      cases stepped
      cases token

/-- The numbers in a source are cut as numbers of the format. -/
theorem Lexes.held {cursor last : Cursor} {lexemes : List Lexeme} (lexes : Lexes cursor lexemes last) {x : Binary64}
    (cut : .float x ∈ tokensOf lexemes) : x.Held := by
  induction lexes with
  | done => cases cut
  | step stepped _ ih =>
    rcases List.mem_cons.mp cut with first | later
    · exact held_step stepped first.symm
    · exact ih later

end Cursor

namespace Source

/-- Where a tag is cut at the start of its source, it can start there. -/
theorem opensTag_of_tokens {s : String} {rest : List Token}
    (tokens : tokensOf (lexemes (Template.tag s)).tokens = .tagStart :: rest) :
    Lexer.opensTag (s.toList ++ ['\x7d', '\x7d']) = true := by
  by_contra closed
  obtain ⟨_, _, stepped, -, -⟩ := Cursor.step_text rfl (start_rest s) fun _ => by simpa using closed
  rw [lexemes, (Cursor.Lexes.step stepped (.done _)).lexemes] at tokens
  cases tokens

end Source

/-- A text that a tag of its own holds as one token, which stands for a text or a number. -/
structure IsLiteral (lit : String) (token : Token) : Prop where
  isText : (Expr.argumentText token).isSome = true
  whole : (Source.lexemes (Template.tag (" " ++ lit ++ " "))).problem = none
  tokens : tokensOf (Source.lexemes (Template.tag (" " ++ lit ++ " "))).tokens = [.tagStart, token, .tagEnd]

/-- A tag that falls back to a literal where a variable is absent. -/
def fallbackTag (name lit : String) : String :=
  Template.tag (" " ++ name ++ "|default:" ++ lit ++ " ")

namespace IsLiteral

variable {lit name : String} {token : Token}

theorem held {x : Binary64} (literal : IsLiteral lit (.float x)) : x.Held := by
  obtain ⟨last, lexes, -⟩ := Cursor.lexes_lexemes (Source.start (Template.tag (" " ++ lit ++ " ")))
  refine lexes.held (x := x) ?_
  show Token.float x ∈ tokensOf (Source.lexemes (Template.tag (" " ++ lit ++ " "))).tokens
  rw [literal.tokens]
  exact List.mem_cons_of_mem _ (List.mem_cons_self ..)

/-- What stands in the tag of a literal behind the blank in front of it. -/
theorem cut (literal : IsLiteral lit token) {cursor : Cursor} (inTag : cursor.inTag = true)
    (front : cursor.rest = lit.toList ++ [' ', '\x7d', '\x7d']) :
    tokensOf cursor.lexemes.tokens = [token, .tagEnd] ∧ cursor.lexemes.problem = none := by
  obtain ⟨-, whole, tokens⟩ := literal
  obtain ⟨opening, inside, stepped, inTag', front'⟩ := Source.start_opens (Source.opensTag_of_tokens tokens)
  have all : Source.lexemes (Template.tag (" " ++ lit ++ " ")) =
      ⟨⟨.tagStart, opening⟩ :: inside.lexemes.tokens, inside.lexemes.problem⟩ :=
    (Cursor.Lexes.step stepped (.done _)).lexemes
  have spaced : inside.rest = ' ' :: cursor.rest := by
    rw [front', front]
    simp
  obtain ⟨same, problem⟩ := Cursor.tokens_of_dropWhile inTag inTag' (by rw [spaced]; rfl)
  rw [all] at whole tokens
  rw [same, problem]
  exact ⟨(List.cons.inj tokens).2, whole⟩

/-- What stands in front of the argument of the fallback. -/
def fallbackChars (name : String) : List Char :=
  ' ' :: (name.toList ++ '|' :: ("default".toList ++ [':']))

theorem fallbackChars_plain (isWord : Lexer.isWord name = true) :
    ∀ d ∈ fallbackChars name, d ≠ '\x7b' ∧ d ≠ '\x7d' := by
  have word {w : String} (isWord : Lexer.isWord w = true) : ∀ d ∈ w.toList, d ≠ '\x7b' ∧ d ≠ '\x7d' := by
    intro d found
    have inside := (Segment.word w isWord).text_wordChars d found
    constructor <;> rintro rfl <;> cases inside
  simp only [fallbackChars, List.forall_mem_cons, List.forall_mem_append]
  exact ⟨by decide, word isWord, by decide, word (by decide), by decide, List.forall_mem_nil _⟩

/-- A fallback is cut up to its argument. -/
theorem cuts_fallbackChars (isWord : Lexer.isWord name = true) {cursor : Cursor} (inTag : cursor.inTag = true)
    {behind : List Char} (front : cursor.rest = fallbackChars name ++ behind) :
    cursor.Cuts [.word name, .pipe, .word "default", .colon] behind := by
  have colon (next : Cursor) (inTag : next.inTag = true) (here : next.rest = ':' :: behind) :
      next.Cuts [.colon] behind := by
    refine FilterStep.cuts_operator inTag here rfl (by decide) ?_ rfl
    cases behind.head? <;> rfl
  have default (next : Cursor) (inTag : next.inTag = true) (here : next.rest = "default".toList ++ ':' :: behind) :
      next.Cuts [.word "default"] (':' :: behind) :=
    Cursor.cuts_word (by decide) inTag here (by rintro _ ⟨⟩; rfl)
  have pipe (next : Cursor) (inTag : next.inTag = true)
      (here : next.rest = '|' :: ("default".toList ++ ':' :: behind)) :
      next.Cuts [.pipe] ("default".toList ++ ':' :: behind) :=
    FilterStep.cuts_operator inTag here rfl (by decide) rfl rfl
  have front : cursor.rest = [' '] ++ (name.toList ++ '|' :: ("default".toList ++ ':' :: behind)) := by
    rw [front]
    simp [fallbackChars]
  have named : cursor.Cuts [.word name] ('|' :: ("default".toList ++ ':' :: behind)) :=
    (Segment.word name isWord).cuts inTag front Text.isTagSpace_blank (by rintro _ ⟨⟩; rfl) (by rintro ⟨⟩)
  exact named.trans fun _ inTag here => (pipe _ inTag here).trans fun _ inTag here =>
    (default _ inTag here).trans colon

/-- Behind a variable, a literal is cut as the argument of the fallback. -/
theorem tokens_fallbackTag (literal : IsLiteral lit token) (isWord : Lexer.isWord name = true) :
    (Source.lexemes (fallbackTag name lit)).problem = none ∧
      tokensOf (Source.lexemes (fallbackTag name lit)).tokens =
        [.tagStart, .word name, .pipe, .word "default", .colon, token, .tagEnd] := by
  have split : (" " ++ name ++ "|default:" ++ lit ++ " ").toList ++ ['\x7d', '\x7d'] =
      fallbackChars name ++ (lit.toList ++ [' ', '\x7d', '\x7d']) := by
    simp [fallbackChars]
  have opens : Lexer.opensTag ((" " ++ name ++ "|default:" ++ lit ++ " ").toList ++ ['\x7d', '\x7d']) = true := by
    have own := Source.opensTag_of_tokens literal.tokens
    rw [show (" " ++ lit ++ " ").toList ++ ['\x7d', '\x7d'] = [' '] ++ (lit.toList ++ [' ', '\x7d', '\x7d']) by simp,
      Lexer.opensTag_append_of_plain (List.forall_mem_singleton.mpr (by decide))] at own
    rw [split, Lexer.opensTag_append_of_plain (fallbackChars_plain isWord), own]
  obtain ⟨opening, inside, stepped, inTag, front⟩ := Source.start_opens opens
  rw [split] at front
  obtain ⟨before, last, lexes, same, inTag', front'⟩ := cuts_fallbackChars isWord inTag front
  obtain ⟨tokens, whole⟩ := literal.cut inTag' front'
  have all : Source.lexemes (fallbackTag name lit) =
      ⟨⟨.tagStart, opening⟩ :: before ++ last.lexemes.tokens, last.lexemes.problem⟩ :=
    (Cursor.Lexes.step stepped lexes).lexemes
  rw [all]
  refine ⟨whole, ?_⟩
  rw [tokensOf_append, tokens, tokensOf, List.map_cons, ← tokensOf, same]
  rfl

end IsLiteral

end TextTemplate
