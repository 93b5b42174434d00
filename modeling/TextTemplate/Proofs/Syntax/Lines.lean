import TextTemplate.Proofs.Syntax.Spans
import TextTemplate.Proofs.Syntax.Tiling
import TextTemplate.Syntax.Parser

/-!
The lines of a source. Tokens end on lines that the source has, and so the line of a template that cannot be
read is one of them, whatever ends the last line.
-/
namespace TextTemplate

namespace Text

variable {cs before behind : List Char} {c : Char}

/-- A text has the lines of what stands behind its first character, unless that ends a line or begins the only one. -/
theorem length_lines_cons (c : Char) (cs : List Char) :
    (lines (c :: cs)).length = if c = '\n' then (lines cs).length + 1 else max 1 (lines cs).length := by
  rw [lines.eq_def]
  split
  · rename_i same
    cases same
  · rename_i rest same
    obtain ⟨rfl, rfl⟩ := List.cons.inj same
    rw [if_neg (by decide), lines.eq_def ('\n' :: rest)]
    simp
  · rename_i same
    obtain ⟨rfl, rfl⟩ := List.cons.inj same
    rw [if_pos rfl, List.length_cons]
  · rename_i other same
    obtain ⟨rfl, rfl⟩ := List.cons.inj same
    rw [if_neg other]
    cases lines cs <;> simp [extendLine]

/-- In front of a character fewer lines end than there are. -/
theorem count_lt_length_lines (before behind : List Char) (c : Char) :
    before.count '\n' < (lines (before ++ c :: behind)).length := by
  induction before with
  | nil =>
    rw [List.nil_append, length_lines_cons, List.count_nil]
    split
    · exact Nat.succ_pos _
    · exact Nat.lt_of_lt_of_le Nat.one_pos (Nat.le_max_left ..)
  | cons a before ih =>
    rw [List.cons_append, length_lines_cons]
    by_cases ends : a = '\n'
    · rw [if_pos ends, ends, List.count_cons_self]
      exact Nat.succ_lt_succ ih
    · rw [if_neg ends, List.count_cons_of_ne ends]
      exact Nat.lt_of_lt_of_le ih (Nat.le_max_right ..)

end Text

namespace Source

variable {text : String} {before behind ending : List Char} {lexeme : Lexeme}

/-- A text has a line of a number. -/
def HasLine (text : String) (line : Nat) : Prop :=
  1 ≤ line ∧ line ≤ (Text.lines text.toList).length

theorem hasLine_before {c : Char} (split : text.toList = before ++ c :: behind) :
    HasLine text (1 + before.count '\n') := by
  refine ⟨Nat.le_add_right 1 _, ?_⟩
  have fewer := Text.count_lt_length_lines before behind c
  rw [split]
  omega

/-- Where a text stops but for one line end, its last line is. -/
theorem hasLine_behind (cut : text.toList = Text.dropLineEnd text.toList ++ ending)
    (here : text.toList = before ++ (behind ++ ending)) (some : text.toList ≠ []) :
    HasLine text (1 + before.count '\n') := by
  cases after : behind ++ ending with
  | cons c rest =>
    rw [after] at here
    exact hasLine_before here
  | nil =>
    obtain ⟨rfl, rfl⟩ := List.append_eq_nil_iff.mp after
    have whole : text.toList = before := by simpa using here
    -- nothing was dropped, so that the last character ends no line
    have unended : text.toList.getLast? ≠ Option.some '\n' := by
      rcases Text.dropLineEnd_cases text.toList with all | ⟨all, -⟩ | ⟨-, unended⟩
      · have length := congrArg List.length (cut.symm.trans all)
        simp at length
      · have length := congrArg List.length (cut.symm.trans all)
        simp at length
      · exact unended
    have last := List.dropLast_append_getLast some
    have other : text.toList.getLast some ≠ '\n' := by
      rwa [List.getLast?_eq_some_getLast some, Ne, Option.some.injEq] at unended
    have counted : before.count '\n' = text.toList.dropLast.count '\n' := by
      rw [← whole, ← last, List.count_append, List.count_singleton, List.dropLast_concat]
      simp [other]
    rw [counted]
    exact hasLine_before last.symm

/-- The tokens of a text end on lines of it. -/
theorem hasLine_of_token (found : lexeme ∈ (start text).lexemes.tokens) : HasLine text lexeme.span.stop.line := by
  obtain ⟨ending, cut, here⟩ := start_at text
  obtain ⟨last, lexes, -⟩ := Cursor.lexes_lexemes (start text)
  obtain ⟨front, cursor, next, first, stepped⟩ := lexes.mem found
  obtain ⟨taken, here⟩ := first.at_last here
  obtain ⟨blanks, written, takes⟩ := Cursor.step_takes stepped
  rw [takes.span_eq here]
  refine hasLine_behind cut (takes.at_next here).rest fun empty => ?_
  rw [takes.source_eq here] at empty
  simp [takes.nonempty] at empty

end Source

namespace Template

/-- What cannot be read names the line before its tokens, or one on which a token ends. -/
theorem parseFrom_error {source : List Char} {cursor : Cursor} {misread : Misread} {has : Nat → Prop}
    (first : has cursor.position.line) (tokens : ∀ lexeme ∈ cursor.lexemes.tokens, has lexeme.span.stop.line)
    (fails : parseFrom source cursor = .error misread) : has misread.line := by
  obtain ⟨span, has, line⟩ := parseFrom_misread (I := .spans fun span => has span.stop.line) fails ⟨first, tokens⟩
  rw [line]
  exact has

theorem parseFrom_line {text : String} {misread : Misread}
    (fails : parseFrom text.toList (Source.start text) = .error misread) : Source.HasLine text misread.line := by
  by_cases empty : text = ""
  · -- an empty text, which has no lines, can be read
    have reads : (parseFrom "".toList (Source.start "")).isOk = true := by decide +kernel
    rw [empty] at fails
    rw [fails] at reads
    cases reads
  have some : text.toList ≠ [] := mt String.toList_eq_nil_iff.mp empty
  obtain ⟨ending, cut, -⟩ := Source.start_at text
  have first : Source.HasLine text (1 + ([] : List Char).count '\n') :=
    Source.hasLine_behind cut cut some
  exact parseFrom_error first (fun lexeme => Source.hasLine_of_token) fails

/-- A template that cannot be read is shown with a line that it has. -/
theorem parse_error {text name : String} {fault : Fault} (fails : parse text name = .error fault) :
    ∃ line, fault.place = some ⟨name, line⟩ ∧ fault.source = some text ∧ Source.HasLine text line := by
  unfold parse at fails
  split at fails
  · cases fails
  · rename_i misread unread
    obtain rfl := Except.error.inj fails
    exact ⟨misread.line, rfl, rfl, parseFrom_line unread⟩

end Template

end TextTemplate
