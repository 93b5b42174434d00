import TextTemplate.Proofs.Syntax.Lines
import TextTemplate.Proofs.Syntax.Segments

/-!
Problems in the characters of a tag. The tokens of a text stop where such a problem is met, and a template that
cannot be read because of it names the line on which the last of these tokens ends. The problem stands there too
unless the blanks in between end lines.
-/
namespace TextTemplate

namespace Decimal

/-- Digits in front of a point and behind it are a decimal. -/
theorem isSome_read?_fraction {whole fraction : List Char} (inside : ∀ c ∈ whole, c.isDigit = true)
    (some : whole ≠ []) (behind : ∀ c ∈ fraction, c.isDigit = true) :
    (read? (whole ++ '.' :: fraction)).isSome = true := by
  have first : spanDigits (whole ++ '.' :: fraction) = (whole, '.' :: fraction) := spanDigits_append inside (by simp)
  have second : spanDigits fraction = (fraction, []) := by
    rw [spanDigits, List.takeWhile_eq_self_iff.mpr behind, List.dropWhile_eq_nil_iff.mpr behind]
  unfold read?
  rw [first]
  simp [second, some]

end Decimal

namespace Lexer

variable {c : Char} {cs body : List Char} {problem : SyntaxProblem}

/-- A text with which a tag cannot go on, and the problem that it is. -/
inductive Offends : SyntaxProblem → List Char → Prop where
  | ending : Offends .endInsideTag []
  | character {c : Char} {cs : List Char} : startsPair '\x7d' (c :: cs) = false →
    cs.head?.bind (pairOperator? c) = none → singleOperator? c = none → ¬(c = '\x27' ∨ c = '"') →
    c.isDigit = false → isWordStart c = false → Offends .unexpectedCharacter (c :: cs)
  | string {c : Char} {cs : List Char} : c = '\x27' ∨ c = '"' → stringBody? c cs = none →
    Offends .unendedString (c :: cs)
  | escape {c : Char} {cs body : List Char} : c = '\x27' ∨ c = '"' → stringBody? c cs = some body →
    unescape? body = none → Offends .badEscape (c :: cs)
  | integer {c : Char} {cs : List Char} : c.isDigit = true → fractionLength (spanDigits (c :: cs)).2 = 0 →
    integerMax < natOfDigits (spanDigits (c :: cs)).1 → Offends .integerRange (c :: cs)

theorem stringToken_error (fails : stringToken body = .error problem) :
    problem = .badEscape ∧ unescape? body = none := by
  unfold stringToken at fails
  split at fails
  · split at fails
    · cases fails
    · rename_i bad
      exact ⟨(Except.error.inj fails).symm, bad⟩
  · cases fails

/-- What a number with a fraction takes is a decimal. -/
theorem isSome_read?_number (digit : c.isDigit = true) (fractional : fractionLength (spanDigits (c :: cs)).2 ≠ 0) :
    (Decimal.read? ((c :: cs).take (numberLength (c :: cs)))).isSome = true := by
  have some : (spanDigits (c :: cs)).1 ≠ [] := by simp [spanDigits, digit]
  have inside : ∀ d ∈ (spanDigits (c :: cs)).1, d.isDigit = true := fun d found => List.mem_takeWhile_imp found
  have all : c :: cs = (spanDigits (c :: cs)).1 ++ (spanDigits (c :: cs)).2 := List.takeWhile_append_dropWhile.symm
  unfold numberLength
  generalize (spanDigits (c :: cs)).1 = digits at some inside all ⊢
  generalize (spanDigits (c :: cs)).2 = rest at fractional all ⊢
  unfold fractionLength at fractional ⊢
  split at fractional
  · rename_i more
    have empty : ¬(spanDigits more).1.isEmpty = true := fun empty => fractional (if_pos empty)
    have fraction : more.take (spanDigits more).1.length = (spanDigits more).1 :=
      (List.prefix_iff_eq_take.mp (List.takeWhile_prefix _)).symm
    rw [all, List.take_length_add_append, if_neg empty, List.take_succ_cons, fraction]
    exact Decimal.isSome_read?_fraction inside some fun d found => List.mem_takeWhile_imp found
  · exact absurd rfl fractional

theorem numberToken_error (digit : c.isDigit = true) (fails : numberToken (c :: cs) = .error problem) :
    problem = .integerRange ∧ fractionLength (spanDigits (c :: cs)).2 = 0 ∧
      integerMax < natOfDigits (spanDigits (c :: cs)).1 := by
  unfold numberToken at fails
  dsimp only at fails
  split at fails
  · rename_i whole
    split at fails
    · cases fails
    · rename_i large
      exact ⟨(Except.error.inj fails).symm, whole, not_le.mp large⟩
  · rename_i fractional
    split at fails
    · cases fails
    · rename_i unread
      have reads := isSome_read?_number digit fractional
      rw [unread] at reads
      cases reads

theorem tagPiece_error (inside : startsPair '\x7d' (c :: cs) = false)
    (fails : (tagPiece c cs).found = .error problem) : Offends problem (c :: cs) := by
  unfold tagPiece at fails
  split at fails
  · cases fails
  rename_i pair
  split at fails
  · cases fails
  rename_i single
  split at fails
  · rename_i quote
    split at fails
    · rename_i body closed
      obtain ⟨rfl, bad⟩ := stringToken_error fails
      exact .escape quote closed bad
    · rename_i unended
      obtain rfl := Except.error.inj fails
      exact .string quote unended
  rename_i unquoted
  split at fails
  · rename_i digit
    obtain ⟨rfl, whole, large⟩ := numberToken_error digit fails
    exact .integer digit whole large
  rename_i digitless
  split at fails
  · cases fails
  · rename_i wordless
    obtain rfl := Except.error.inj fails
    exact .character inside pair single unquoted (by simpa using digitless) (by simpa using wordless)

end Lexer

namespace Cursor

variable {cursor next : Cursor} {problem : SyntaxProblem}

theorem skipBlanks_head (cursor : Cursor) : ∀ c ∈ cursor.skipBlanks.rest.head?, Text.isTagSpace c = false := by
  have same : cursor.rest.dropWhile Text.isTagSpace = cursor.skipBlanks.rest :=
    List.append_cancel_left (List.takeWhile_append_dropWhile.trans cursor.skipBlanks_rest.1)
  intro c front
  have nonblank := List.head?_dropWhile_not Text.isTagSpace cursor.rest
  rw [same, front] at nonblank
  simpa using nonblank

/-- A step fails inside of a tag, behind blanks. -/
theorem step_failed (stepped : cursor.step = .failed problem next) :
    cursor.inTag = true ∧ Lexer.Offends problem cursor.skipBlanks.rest := by
  unfold step at stepped
  split at stepped
  · rename_i inside
    refine ⟨inside, ?_⟩
    unfold stepInTag at stepped
    dsimp only at stepped
    split at stepped
    · rename_i ended
      obtain ⟨rfl, -⟩ := Step.failed.inj stepped
      rw [ended]
      exact .ending
    rename_i c cs front
    rw [front]
    split at stepped
    · cases stepped
    rename_i open_
    split at stepped
    · cases stepped
    · rename_i fails
      obtain ⟨rfl, -⟩ := Step.failed.inj stepped
      exact Lexer.tagPiece_error (by simpa using open_) fails
  · unfold stepInText emit at stepped
    repeat' split at stepped
    all_goals cases stepped

end Cursor

/-- The problem and the last token of a source stay what they are while its tokens are taken, and a failure with a
problem in the characters is that problem, on the line where that token ends. -/
def Invariant.ending (problem : Option SyntaxProblem) (last : Span) : Invariant where
  Holds pending := pending.problem = problem ∧ (pending.tokens.getLast?.map (·.span)).getD pending.last = last
  OfSpan _ := True
  OfMisread misread := misread.problem.isLexical = true → problem = some misread.problem ∧ misread.line = last.stop.line
  last _ := trivial
  next _ _ := trivial
  behind {_ lexeme rest} holds front := by
    refine ⟨holds.1, ?_⟩
    show (rest.getLast?.map (·.span)).getD lexeme.span = last
    rw [← holds.2, front, List.getLast?_cons]
    cases rest.getLast? <;> rfl
  noted holds _ _ := holds
  misread _ own lexical := absurd lexical (by simp [Pending.misread, own])
  ended holds front found _ := by
    obtain ⟨rfl, rfl⟩ := holds
    exact ⟨found, by simp [Pending.misread, front]⟩

namespace Source

variable {text : String} {problem : SyntaxProblem}

/-- The place at which the tokens of a text stop at a problem: behind the last of them, and behind blanks. -/
structure StopsAt (text : String) (problem : SyntaxProblem) (before blanks rest : List Char) : Prop where
  written : Text.dropLineEnd text.toList = before ++ (blanks ++ rest)
  last : ∃ lexeme ∈ (lexemes text).tokens.getLast?, lexeme.span.stop = .behind before
  blank : ∀ c ∈ blanks, Text.isTagSpace c = true
  nonblank : ∀ c ∈ rest.head?, Text.isTagSpace c = false
  offends : Lexer.Offends problem rest

theorem stopsAt_of_problem (found : (lexemes text).problem = some problem) :
    ∃ before blanks rest, StopsAt text problem before blanks rest := by
  obtain ⟨ending, -, here⟩ := start_at text
  obtain ⟨last, lexes, ends⟩ := Cursor.lexes_lexemes (start text)
  obtain ⟨next, stepped⟩ : ∃ next, last.step = .failed problem next := by
    rw [show (start text).lexemes.problem = some problem from found] at ends
    exact ends
  obtain ⟨inside, offends⟩ := Cursor.step_failed stepped
  obtain ⟨before, taken, position⟩ := lexes.taken
  -- a tag was opened, by a token
  have some : (start text).lexemes.tokens ≠ [] := by
    intro none
    rw [none] at lexes
    cases lexes
    cases inside
  refine ⟨before, last.rest.takeWhile Text.isTagSpace, last.skipBlanks.rest, ?_, ?_, ?_,
    last.skipBlanks_head, offends⟩
  · rw [← last.skipBlanks_rest.1, ← taken]
    rfl
  · have stop := lexes.position_last
    rw [List.getLast?_eq_some_getLast some] at stop
    refine ⟨_, List.getLast?_eq_some_getLast some, stop.trans ?_⟩
    rw [position, here.position, Position.after_eq_behind]
    rfl
  · exact fun c found => List.mem_takeWhile_imp found

end Source

namespace Template

variable {text name : String} {fault : Fault} {problem : SyntaxProblem}

/-- The line that is named for a problem in the characters of a tag is the one on which the last token in front of it
ends. That is its own line just when no line ends in the blanks between the two. -/
theorem parse_lexical (fails : parse text name = .error fault) (found : fault.problem = .ofSyntax problem)
    (lexical : problem.isLexical = true) :
    ∃ before blanks rest, Source.StopsAt text problem before blanks rest ∧
      fault.place = some ⟨name, 1 + before.count '\n'⟩ ∧
      (fault.place = some ⟨name, 1 + (before ++ blanks).count '\n'⟩ ↔ '\n' ∉ blanks) := by
  unfold parse at fails
  split at fails
  · cases fails
  rename_i misread unread
  obtain rfl := Except.error.inj fails
  obtain rfl : misread.problem = problem := Problem.ofSyntax.inj found
  obtain ⟨met, line⟩ := parseFrom_misread (I := Invariant.ending _ _) unread ⟨rfl, rfl⟩ lexical
  obtain ⟨before, blanks, rest, stops⟩ := Source.stopsAt_of_problem met
  obtain ⟨lexeme, last, stop⟩ := stops.last
  have place : misread.line = 1 + before.count '\n' := by
    rw [line, show (Source.start text).lexemes.tokens.getLast? = some lexeme from last]
    exact congrArg Position.line stop
  refine ⟨before, blanks, rest, stops, ?_, ?_⟩
  · simp [Template.fault, place]
  · simp [Template.fault, place, List.count_eq_zero]

/-- The string that is not ended stands on the line of the token in front of it. -/
theorem parse_lexical_string :
    let text := "a\n\x7b\x7b x |\n y 'b \x7d\x7d"
    ∃ fault before blanks rest, parse text "t" = .error fault ∧
      Source.StopsAt text .unendedString before blanks rest ∧ fault.place = some ⟨"t", 3⟩ ∧ before.count '\n' = 2 := by
  intro text
  obtain ⟨fault, fails, problem, place⟩ : ∃ fault, parse text "t" = .error fault ∧
      fault.problem = .ofSyntax .unendedString ∧ fault.place = some ⟨"t", 3⟩ := by
    decide +kernel
  obtain ⟨before, blanks, rest, stops, line, -⟩ := parse_lexical fails problem rfl
  have same := place.symm.trans line
  simp only [Option.some.injEq, Place.mk.injEq, true_and] at same
  exact ⟨fault, before, blanks, rest, fails, stops, place, by omega⟩

/-- The character stands on the line behind the one that is named. -/
theorem parse_lexical_character :
    let text := "\x7b\x7b x\n# \x7d\x7d"
    ∃ fault, parse text "t" = .error fault ∧ fault.place = some ⟨"t", 1⟩ ∧
      ∃ before blanks rest, Source.StopsAt text .unexpectedCharacter before blanks rest ∧
        fault.place ≠ some ⟨"t", 1 + (before ++ blanks).count '\n'⟩ := by
  intro text
  obtain ⟨fault, fails, place⟩ : ∃ fault, parse text "t" = .error fault ∧ fault.place = some ⟨"t", 1⟩ := by
    decide +kernel
  refine ⟨fault, fails, place, "\x7b\x7b x".toList, ['\n'], ['#', ' ', '\x7d', '\x7d'], ?_, ?_⟩
  · exact {
      written := by decide
      last := by decide +kernel
      blank := fun c found => by obtain rfl := List.mem_singleton.mp found; rfl
      nonblank := fun c front => by obtain rfl := Option.some.inj front; rfl
      offends := .character (by decide) (by decide) (by decide) (by decide) (by decide) (by decide) }
  · rw [place]
    decide

end Template

end TextTemplate
