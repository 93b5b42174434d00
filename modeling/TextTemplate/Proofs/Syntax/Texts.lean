import TextTemplate.Proofs.Syntax.Literals
import TextTemplate.Proofs.Syntax.Paths

/-!
Texts between tags. Where nothing closes two braces that open, no tag starts: the text is cut into tokens
that are the text again, up to the tag behind it, whose braces no brace of the text may join.
-/
namespace TextTemplate

namespace Text

variable {c : Char} {cs ds : List Char}

/-- A text in which no two closing braces stand behind two opening ones. -/
def Inert (cs : List Char) : Prop :=
  ∀ before behind, cs = before ++ '\x7b' :: '\x7b' :: behind → ¬['\x7d', '\x7d'] <:+: behind

theorem Inert.of_infix (inert : Inert ds) (part : cs <:+: ds) : Inert cs := by
  obtain ⟨front, back, rfl⟩ := part
  rintro before behind rfl closed
  refine inert (front ++ before) (behind ++ back) (by simp) ?_
  exact closed.trans (List.prefix_append behind back).isInfix

theorem inert_cons :
    Inert (c :: cs) ↔
      (Lexer.startsPair '\x7b' (c :: cs) = true → Lexer.pairIndex? '\x7d' (cs.drop 1) = none) ∧ Inert cs := by
  constructor
  · refine fun inert => ⟨fun pair => ?_, inert.of_infix (List.suffix_cons c cs).isInfix⟩
    obtain ⟨behind, same⟩ := Lexer.startsPair_eq_true pair
    obtain ⟨rfl, rfl⟩ := List.cons.inj same
    exact Lexer.pairIndex?_eq_none_iff.mpr (inert [] behind rfl)
  · rintro ⟨first, inert⟩ before behind same
    cases before with
    | nil =>
      obtain ⟨rfl, rfl⟩ := List.cons.inj same
      exact Lexer.pairIndex?_eq_none_iff.mp (first rfl)
    | cons d before => exact inert before behind (List.cons.inj same).2

instance decidableInert : DecidablePred Inert
  | [] => .isTrue fun before behind same => by simp at same
  | _ :: cs =>
    have := decidableInert cs
    decidable_of_iff _ inert_cons.symm

/-- Where a text ends: at the end of the source, or in front of two braces that open and that it does not reach. -/
def EndsAt (cs behind : List Char) : Prop :=
  behind = [] ∨ cs.getLast? ≠ some '\x7b' ∧ ∃ more, behind = '\x7b' :: '\x7b' :: more

theorem EndsAt.drop {behind : List Char} (ends : EndsAt cs behind) (n : Nat) : EndsAt (cs.drop n) behind := by
  refine ends.imp_right (And.imp_left fun apart => ?_)
  rw [List.getLast?_drop]
  split
  · simp
  · exact apart

end Text

namespace Lexer

variable {c : Char} {cs behind : List Char}

theorem opensTag_of_unclosed (unclosed : pairIndex? '\x7d' cs = none) : opensTag cs = false := by
  rw [opensTag, unclosed]

/-- What stands behind the end of a text makes no difference to it. -/
theorem textLength_of_endsAt (ends : Text.EndsAt (c :: cs) behind) :
    textLength (c :: cs ++ behind) = textLength (c :: cs) := by
  obtain rfl | ⟨apart, more, rfl⟩ := ends
  · rw [List.append_nil]
  · have unbraced : c :: cs ≠ ['\x7b'] := by
      intro same
      rw [same] at apart
      exact apart rfl
    refine (textLength_append unbraced (List.cons_ne_nil c cs) more).resolve_right ?_
    rintro ⟨front, joined, -⟩
    rw [joined, List.getLast?_concat] at apart
    exact apart rfl

/-- No tag starts with the first characters of a text that holds none. -/
theorem unopened_of_inert (inert : Text.Inert (c :: cs)) (ends : Text.EndsAt (c :: cs) behind)
    (pair : startsPair '\x7b' (c :: cs ++ behind) = true) : opensTag ((cs ++ behind).drop 1) = false := by
  obtain ⟨first, -⟩ := Text.inert_cons.mp inert
  match cs with
  | [] =>
    obtain ⟨more, same⟩ := startsPair_eq_true pair
    obtain rfl := (List.cons.inj same).1
    obtain rfl | ⟨apart, -⟩ := ends
    · cases same
    · exact absurd rfl apart
  | d :: cs =>
    have closed := opensTag_of_unclosed (first pair)
    obtain rfl | ⟨-, more, rfl⟩ := ends
    · rwa [List.append_nil]
    · exact (opensTag_append cs more).trans closed

end Lexer

namespace Cursor

variable {cursor : Cursor} {c : Char} {cs text behind : List Char}

/-- A text that holds no tag is cut into its parts. -/
theorem lexes_text (inert : Text.Inert text) (ends : Text.EndsAt text behind) (outside : cursor.inTag = false)
    (front : cursor.rest = text ++ behind) :
    ∃ (pieces : List Lexeme) (last : Cursor) (texts : List (List Char)), cursor.Lexes pieces last ∧
      last.inTag = false ∧ last.rest = behind ∧ tokensOf pieces = texts.map (.text ∘ String.ofList) ∧
      texts.flatten = text := by
  -- A text with openers is cut in front of each, so that what is left is shorter but no tail of one character.
  induction size : text.length using Nat.strongRecOn generalizing text cursor with
  | ind n ih =>
  cases text with
  | nil => exact ⟨[], cursor, [], .done cursor, outside, front, rfl, rfl⟩
  | cons c cs =>
    have length := Lexer.textLength_of_endsAt ends
    have positive := Lexer.textLength_pos c cs
    have within := Lexer.textLength_le (c :: cs)
    have whole : cursor.rest = c :: (cs ++ behind) := front
    obtain ⟨span, next, stepped, outside, rest⟩ := step_text outside whole (Lexer.unopened_of_inert inert ends)
    rw [← List.cons_append, length, List.take_append_of_le_length within] at stepped
    rw [← List.cons_append, length, List.drop_append_of_le_length within] at rest
    have part := (List.drop_suffix (Lexer.textLength (c :: cs)) (c :: cs)).isInfix
    have shorter : ((c :: cs).drop (Lexer.textLength (c :: cs))).length < n := by
      rw [List.length_drop]
      omega
    obtain ⟨pieces, last, texts, lexes, outside', rest', tokens, all⟩ :=
      ih _ shorter (inert.of_infix part) (ends.drop _) outside rest rfl
    refine ⟨_ :: pieces, last, (c :: cs).take (Lexer.textLength (c :: cs)) :: texts, .step stepped lexes, outside',
      rest', ?_, ?_⟩
    · rw [tokensOf, List.map_cons, ← tokensOf, tokens]
      rfl
    · rw [List.flatten_cons, all, List.take_append_drop]

/-- The tag of a variable is cut into three tokens. -/
theorem lexes_variable {name : String} (isWord : Lexer.isWord name = true) (outside : cursor.inTag = false)
    (front : cursor.rest = (Template.tag (" " ++ name ++ " ")).toList ++ behind) :
    ∃ (opening word ending : Span) (last : Cursor),
      cursor.Lexes [⟨.tagStart, opening⟩, ⟨.word name, word⟩, ⟨.tagEnd, ending⟩] last ∧ last.inTag = false ∧
        last.rest = behind := by
  have front : cursor.rest =
      '\x7b' :: '\x7b' :: ((' ' :: (name.toList ++ [' '])) ++ '\x7d' :: '\x7d' :: behind) := by
    rw [front, Template.tag]
    simp
  have plain : Lexer.pairIndex? '\x7b' (' ' :: (name.toList ++ [' '])) = none := by
    refine Lexer.pairIndex?_of_not_mem fun found => ?_
    simp only [List.mem_cons, List.mem_append, List.not_mem_nil, or_false] at found
    rcases found with blank | inside | blank
    · cases blank
    · exact absurd ((Segment.word name isWord).text_wordChars _ inside) (by decide)
    · cases blank
  obtain ⟨opening, inside, opens, inTag, rest⟩ := step_opens outside front (Lexer.opensTag_of_none plain behind)
  have rest : inside.rest =
      [' '] ++ ((Segment.word name isWord).text.toList ++ ([' '] ++ '\x7d' :: '\x7d' :: behind)) := by
    rw [rest]
    simp [Segment.text]
  obtain ⟨words, next, lexes, tokens, inTag, rest⟩ :=
    (Segment.word name isWord).cuts inTag rest Text.isTagSpace_blank (by rintro _ ⟨⟩; rfl) (by rintro ⟨⟩)
  obtain ⟨⟨_, word⟩, rfl, rfl⟩ := List.map_eq_singleton_iff.mp tokens
  obtain ⟨ending, last, closes, outside, rest⟩ := step_closes inTag rest Text.isTagSpace_blank
  exact ⟨opening, word, ending, last, .step opens (lexes_append.mpr ⟨next, lexes, .step closes (.done last)⟩),
    outside, rest⟩

end Cursor

end TextTemplate
