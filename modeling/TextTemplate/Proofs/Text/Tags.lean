import TextTemplate.Text.Markup

/-!
Tags of a text. A tag starts at a `<` outside of the tags before it, and ends with the next `>` or, if there is
none, with the text. What stands outside of the tags holds no `<`, so that nothing is left to remove.
-/
namespace TextTemplate.Text

/-- A text and what stands outside of its tags. -/
inductive Untagged : List Char → List Char → Prop
  | nil : Untagged [] []
  | plain {c : Char} {cs outside : List Char} (other : c ≠ '<') (behind : Untagged cs outside) :
    Untagged (c :: cs) (c :: outside)
  | closed {inner cs outside : List Char} (unended : '>' ∉ inner) (behind : Untagged cs outside) :
    Untagged ('<' :: (inner ++ '>' :: cs)) outside
  | unclosed {inner : List Char} (unended : '>' ∉ inner) : Untagged ('<' :: inner) []

variable {c : Char} {cs inner outside : List Char}

/-- A tag is left by the first `>`, however many more tags seem to start in it. -/
theorem stripTagsFrom_inner (unended : '>' ∉ inner) (rest : List Char) :
    stripTagsFrom true (inner ++ rest) = stripTagsFrom true rest := by
  induction inner with
  | nil => rfl
  | cons c inner ih =>
    obtain ⟨other, unended⟩ := List.ne_and_not_mem_of_not_mem_cons unended
    have goesOn : (c != '>') = true := bne_iff_ne.mpr other.symm
    rw [List.cons_append, stripTagsFrom, if_pos rfl, goesOn, ite_self, ih unended]

namespace Untagged

theorem eq_stripTags (untagged : Untagged cs outside) : outside = stripTags cs := by
  induction untagged with
  | nil => rfl
  | plain other behind ih => rw [stripTags, stripTagsFrom, if_neg other, if_neg Bool.false_ne_true, ih, stripTags]
  | closed unended behind ih =>
    rw [stripTags, stripTagsFrom, if_pos rfl, stripTagsFrom_inner unended, ih]
    rfl
  | unclosed unended =>
    have toEnd := stripTagsFrom_inner unended []
    rw [List.append_nil, stripTagsFrom] at toEnd
    rw [stripTags, stripTagsFrom, if_pos rfl, toEnd]

theorem not_mem (untagged : Untagged cs outside) : '<' ∉ outside := by
  induction untagged with
  | nil => exact List.not_mem_nil
  | plain other behind ih => exact List.not_mem_cons_of_ne_of_not_mem other.symm ih
  | closed unended behind ih => exact ih
  | unclosed unended => exact List.not_mem_nil

/-- The tag that a text starts with may have one character more. -/
theorem widened (other : c ≠ '>') (untagged : Untagged ('<' :: cs) outside) :
    Untagged ('<' :: c :: cs) outside := by
  have inside {inner : List Char} (unended : '>' ∉ inner) : '>' ∉ c :: inner :=
    List.not_mem_cons_of_ne_of_not_mem other.symm unended
  cases untagged with
  | plain start => exact absurd rfl start
  | closed unended behind => exact .closed (inside unended) behind
  | unclosed unended => exact .unclosed (inside unended)

end Untagged

/-- The scan leaves what stands outside of the tags, whether it starts outside of a tag or in one. -/
theorem untagged_stripTagsFrom (cs : List Char) :
    Untagged cs (stripTagsFrom false cs) ∧ Untagged ('<' :: cs) (stripTagsFrom true cs) := by
  induction cs with
  | nil => exact ⟨.nil, .unclosed List.not_mem_nil⟩
  | cons c cs ih =>
    obtain ⟨outside, inside⟩ := ih
    by_cases start : c = '<'
    · subst start
      rw [stripTagsFrom, stripTagsFrom, if_pos rfl, if_pos rfl]
      exact ⟨inside, inside.widened (by decide)⟩
    · rw [stripTagsFrom, stripTagsFrom, if_neg start, if_neg start, if_neg Bool.false_ne_true, if_pos rfl]
      refine ⟨.plain start outside, ?_⟩
      by_cases stop : c = '>'
      · subst stop
        exact .closed List.not_mem_nil outside
      · rw [bne_iff_ne.mpr stop]
        exact inside.widened stop

theorem untagged_stripTags (cs : List Char) : Untagged cs (stripTags cs) :=
  (untagged_stripTagsFrom cs).1

/-- No tag is removed from a text in which none starts. -/
theorem stripTags_of_not_mem (untagged : '<' ∉ cs) : stripTags cs = cs := by
  refine (Untagged.eq_stripTags ?_).symm
  induction cs with
  | nil => exact .nil
  | cons c cs ih =>
    obtain ⟨other, untagged⟩ := List.ne_and_not_mem_of_not_mem_cons untagged
    exact .plain other.symm (ih untagged)

/-- Removing tags leaves what stands outside of the tags, and only that. It holds no `<`, so that a second removal
changes nothing, and neither does the first one if the text holds none, whatever `>` there are in it. -/
theorem stripTags_outside (cs : List Char) :
    (∀ outside, Untagged cs outside ↔ outside = stripTags cs) ∧
      '<' ∉ stripTags cs ∧
      stripTags (stripTags cs) = stripTags cs ∧
      ('<' ∉ cs → stripTags cs = cs) := by
  have outside := untagged_stripTags cs
  refine ⟨fun other => ⟨Untagged.eq_stripTags, ?_⟩, outside.not_mem, ?_, stripTags_of_not_mem⟩
  · rintro rfl
    exact outside
  · exact stripTags_of_not_mem outside.not_mem

/-- A tag with another `<` in it, a `>` that ends none, and a tag that is not closed. -/
example : stripTags "a<b <c>d>e<f".toList = "ad>e".toList := by decide +kernel

end TextTemplate.Text
