import TextTemplate.Proofs.Syntax.LiteralTags
import TextTemplate.Proofs.Syntax.Misreading

/-!
Items of a source, asked for one after the other, also behind a problem. Tokens take characters, and so do
problems in a string or a number that was read to its end; other problems leave the cursor where they are
met, and are met there again. Main statement: after no more items than the source has characters, either
nothing is given any more or the same problem for ever.
-/
namespace TextTemplate

/-- Problems that are met without taking a character: what is asked for next is the same problem. -/
def SyntaxProblem.isStuck : SyntaxProblem → Bool
  | .endInsideTag | .unexpectedCharacter | .unendedString => true
  | _ => false

/-- Whether an item takes characters. -/
def Lexer.passes : Except SyntaxProblem Lexeme → Bool
  | .ok _ => true
  | .error problem => !problem.isStuck

namespace Lexer

variable {c : Char} {cs : List Char} {problem : SyntaxProblem}

theorem tagPiece_length (fails : (tagPiece c cs).found = .error problem) :
    (tagPiece c cs).length = 0 ↔ problem.isStuck = true := by
  generalize cut : tagPiece c cs = piece at fails ⊢
  -- strings that end and numbers are taken as a whole before they are refused
  unfold tagPiece at cut
  split at cut
  · subst cut
    cases fails
  split at cut
  · subst cut
    cases fails
  split at cut
  · split at cut
    · subst cut
      obtain ⟨rfl, -⟩ := stringToken_error fails
      simp [SyntaxProblem.isStuck]
    · subst cut
      obtain rfl := Except.error.inj fails
      simp [SyntaxProblem.isStuck]
  split at cut
  · rename_i digit
    subst cut
    obtain ⟨rfl, -⟩ := numberToken_error digit fails
    simp [SyntaxProblem.isStuck, Nat.ne_of_gt (numberLength_pos digit cs)]
  split at cut
  · subst cut
    cases fails
  · subst cut
    obtain rfl := Except.error.inj fails
    simp [SyntaxProblem.isStuck]

end Lexer

namespace Cursor

variable {cursor next : Cursor} {problem : SyntaxProblem}

theorem advance_zero (cursor : Cursor) : cursor.advance 0 = cursor := rfl

/-- A problem leaves the cursor behind the blanks and what was taken, which is nothing just if the problem is stuck. -/
theorem step_failed_next (stepped : cursor.step = .failed problem next) :
    ∃ n, next = cursor.skipBlanks.advance n ∧ (n = 0 ↔ problem.isStuck = true) ∧
      (n ≠ 0 → cursor.skipBlanks.rest ≠ []) := by
  unfold step at stepped
  split at stepped
  · unfold stepInTag at stepped
    dsimp only at stepped
    split at stepped
    · obtain ⟨rfl, rfl⟩ := Step.failed.inj stepped
      exact ⟨0, (advance_zero _).symm, iff_of_true rfl rfl, fun some => absurd rfl some⟩
    rename_i c cs front
    split at stepped
    · cases stepped
    split at stepped
    · cases stepped
    · rename_i fails
      obtain ⟨rfl, rfl⟩ := Step.failed.inj stepped
      exact ⟨_, rfl, Lexer.tagPiece_length fails, fun _ => by simp [front]⟩
  · unfold stepInText emit at stepped
    repeat' split at stepped
    all_goals cases stepped

/-- A problem that is not stuck takes a character, as a token does. -/
theorem step_failed_shorter (stepped : cursor.step = .failed problem next) (passed : problem.isStuck = false) :
    next.rest.length < cursor.rest.length := by
  obtain ⟨n, rfl, stuck, some⟩ := step_failed_next stepped
  have moved : n ≠ 0 := fun zero => by simp [stuck.mp zero] at passed
  have positive := List.length_pos_iff.mpr (some moved)
  have behind := congrArg List.length cursor.skipBlanks_rest.1
  simp only [advance, List.length_append, List.length_drop] at behind positive ⊢
  omega

/-- The same is given at the cursor again, and the cursor stays. -/
def Settled (cursor : Cursor) : Prop := cursor.next.2.next = cursor.next

theorem item?_of_settled (settled : cursor.Settled) (n : Nat) : cursor.item? n = cursor.next.1 := by
  induction n generalizing cursor with
  | zero => rfl
  | succ n ih =>
    have again : cursor.next.2.Settled := by
      unfold Settled at *
      rw [settled, settled]
    exact (ih again).trans (congrArg Prod.fst settled)

/-- A stuck problem leaves the cursor behind the blanks, where it is met again. -/
theorem settled_of_stuck (stepped : cursor.step = .failed problem next) (stuck : problem.isStuck = true) :
    cursor.Settled := by
  obtain ⟨n, rfl, unmoved, -⟩ := step_failed_next stepped
  obtain rfl := unmoved.mpr stuck
  rw [advance_zero] at stepped
  -- only inside of a tag a step fails, and there blanks make no difference
  have again : cursor.skipBlanks.step = .failed problem cursor.skipBlanks :=
    (step_skipBlanks (step_failed stepped).1).trans stepped
  simp only [Settled, Cursor.next, stepped, again]

/-- What can be given at a cursor: nothing or a stuck problem, for ever, or an item that takes characters. -/
theorem settled_or_shorter (cursor : Cursor) :
    cursor.Settled ∧ (cursor.next.1 = none ∨
        ∃ problem, problem.isStuck = true ∧ cursor.next.1 = some (.error problem)) ∨
      ∃ item, cursor.next.1 = some item ∧ Lexer.passes item = true ∧
        cursor.next.2.rest.length < cursor.rest.length := by
  cases stepped : cursor.step with
  | finished =>
    have given : cursor.next = (none, cursor) := by simp only [Cursor.next, stepped]
    exact .inl ⟨by rw [Settled, given, given], .inl (by rw [given])⟩
  | lexeme lexeme next =>
    have given : cursor.next = (some (.ok lexeme), next) := by simp only [Cursor.next, stepped]
    rw [given]
    exact .inr ⟨.ok lexeme, rfl, rfl, step_shorter stepped⟩
  | failed problem next =>
    have given : cursor.next = (some (.error problem), next) := by simp only [Cursor.next, stepped]
    cases stuck : problem.isStuck with
    | true => exact .inl ⟨settled_of_stuck stepped stuck, .inr ⟨problem, stuck, by rw [given]⟩⟩
    | false =>
      rw [given]
      exact .inr ⟨.error problem, rfl, by simp [Lexer.passes, stuck], step_failed_shorter stepped stuck⟩

theorem item?_succ (cursor : Cursor) (n : Nat) : cursor.item? (n + 1) = cursor.next.2.item? n := rfl

/-- Items that take characters are no more than there are characters; then nothing new is given any more. -/
theorem exists_settled (cursor : Cursor) : ∃ n ≤ cursor.rest.length,
    (∀ m < n, ∃ item, cursor.item? m = some item ∧ Lexer.passes item = true) ∧
      ((∀ m ≥ n, cursor.item? m = none) ∨
        ∃ problem, problem.isStuck = true ∧ ∀ m ≥ n, cursor.item? m = some (.error problem)) := by
  induction size : cursor.rest.length using Nat.strong_induction_on generalizing cursor with
  | h _ ih =>
    subst size
    rcases cursor.settled_or_shorter with ⟨settled, ends⟩ | ⟨item, given, passes, shorter⟩
    · refine ⟨0, Nat.zero_le _, fun m front => absurd front (Nat.not_lt_zero m), ?_⟩
      rcases ends with ends | ⟨problem, stuck, ends⟩
      · exact .inl fun m _ => (item?_of_settled settled m).trans ends
      · exact .inr ⟨problem, stuck, fun m _ => (item?_of_settled settled m).trans ends⟩
    · obtain ⟨n, bound, front, ends⟩ := ih _ shorter cursor.next.2 rfl
      -- the items of a cursor behind its first are those of the cursor behind
      have behind {answer : Option (Except SyntaxProblem Lexeme)}
          (same : ∀ m ≥ n, cursor.next.2.item? m = answer) : ∀ m ≥ n + 1, cursor.item? m = answer := by
        intro m later
        obtain ⟨m, rfl⟩ := Nat.exists_eq_add_of_le' (Nat.le_trans (Nat.le_add_left 1 n) later)
        exact same m (Nat.le_of_succ_le_succ later)
      refine ⟨n + 1, by omega, fun m front' => ?_, ?_⟩
      · cases m with
        | zero => exact ⟨item, given, passes⟩
        | succ m => exact front m (Nat.lt_of_succ_lt_succ front')
      · rcases ends with ends | ⟨problem, stuck, ends⟩
        · exact .inl (behind ends)
        · exact .inr ⟨problem, stuck, behind ends⟩

/-- The end is reached just if no stuck problem is met. -/
theorem ends_iff (cursor : Cursor) : (∃ n, cursor.item? n = none) ↔
    ∀ n problem, cursor.item? n = some (.error problem) → problem.isStuck = false := by
  obtain ⟨n, -, front, ends⟩ := cursor.exists_settled
  constructor
  · rintro ⟨last, ended⟩ m problem given
    rcases Nat.lt_or_ge m n with before | behind
    · obtain ⟨item, same, passes⟩ := front m before
      obtain rfl := Option.some.inj (same.symm.trans given)
      simpa [Lexer.passes] using passes
    rcases ends with ends | ⟨problem', -, ends⟩
    · cases (ends m behind).symm.trans given
    -- the end would have come before the problem that is met for ever
    rcases Nat.lt_or_ge last n with before | behind
    · obtain ⟨item, same, -⟩ := front last before
      cases same.symm.trans ended
    · cases (ends last behind).symm.trans ended
  · intro passed
    rcases ends with ends | ⟨problem, stuck, ends⟩
    · exact ⟨n, ends n (Nat.le_refl n)⟩
    · cases stuck.symm.trans (passed n problem (ends n (Nat.le_refl n)))

/-- Up to the first problem, items are the tokens. -/
theorem item?_lexemes (cursor : Cursor) : ∀ n ≤ cursor.lexemes.tokens.length, cursor.item? n =
    (cursor.lexemes.tokens.map Except.ok ++ (cursor.lexemes.problem.map Except.error).toList)[n]? := by
  fun_induction Cursor.lexemes cursor with
  | case1 cursor stepped =>
    intro n bound
    obtain rfl := Nat.le_zero.mp bound
    simp [item?, after, Cursor.next, stepped]
  | case2 cursor problem next stepped =>
    intro n bound
    obtain rfl := Nat.le_zero.mp bound
    simp [item?, after, Cursor.next, stepped]
  | case3 cursor lexeme next stepped rest ih =>
    have given : cursor.next = (some (.ok lexeme), next) := by simp only [Cursor.next, stepped]
    intro n bound
    cases n with
    | zero =>
      rw [item?, after, given]
      rfl
    | succ n =>
      rw [item?_succ, given, ih n (Nat.le_of_succ_le_succ bound)]
      rfl

end Cursor

namespace Source

/-- A reader that stops at the first problem is given the tokens of the text and that problem. One that goes on is given
no more items that take characters than the text has, and then nothing for ever or a stuck problem for ever; so it
comes to the end just if it is given no stuck problem. -/
theorem items_settle (text : String) :
    (∀ n ≤ (lexemes text).tokens.length, item? text n =
      ((lexemes text).tokens.map .ok ++ ((lexemes text).problem.map .error).toList)[n]?) ∧
    (∃ n ≤ (Text.dropLineEnd text.toList).length,
      (∀ m < n, ∃ item, item? text m = some item ∧ Lexer.passes item = true) ∧
      ((∀ m ≥ n, item? text m = none) ∨
        ∃ problem, problem.isStuck = true ∧ ∀ m ≥ n, item? text m = some (.error problem))) ∧
    ((∃ n, item? text n = none) ↔
      ∀ n problem, item? text n = some (.error problem) → problem.isStuck = false) :=
  ⟨(start text).item?_lexemes, (start text).exists_settled, (start text).ends_iff⟩

/-- A string with a bad escape is passed, and the tag ends behind it. -/
example : item? "\x7b\x7b'\\x'\x7d\x7d" 1 = some (.error .badEscape) ∧ item? "\x7b\x7b'\\x'\x7d\x7d" 3 = none := by
  decide +kernel

/-- The character of the tag is met again and again, so that the end of the text is not. -/
theorem items_repeat : ¬∃ n, item? "\x7b\x7b#\x7d\x7d" n = none := by
  intro ended
  have met : item? "\x7b\x7b#\x7d\x7d" 1 = some (.error .unexpectedCharacter) := by decide +kernel
  cases (Cursor.ends_iff _).mp ended 1 _ met

end Source

end TextTemplate
