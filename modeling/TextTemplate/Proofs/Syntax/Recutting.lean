import TextTemplate.Proofs.Syntax.Cutting

/-!
Cutting the front of a source alone. What stands in front of two opening braces where a tag starts is
cut into the same tokens without them: no step in front of them looks further than up to the braces,
or what it finds behind them makes no difference.
-/
namespace TextTemplate

section Classes

variable {α : Type} {p : α → Bool} {d : α}

theorem takeWhile_append_stop (cs rest : List α) (stops : p d = false) :
    (cs ++ d :: rest).takeWhile p = cs.takeWhile p := by
  induction cs with
  | nil => simp [stops]
  | cons c cs ih => rw [List.cons_append, List.takeWhile_cons, List.takeWhile_cons, ih]

theorem dropWhile_append_stop (cs rest : List α) (stops : p d = false) :
    (cs ++ d :: rest).dropWhile p = cs.dropWhile p ++ d :: rest := by
  induction cs with
  | nil => simp [stops]
  | cons c cs ih =>
    rw [List.cons_append, List.dropWhile_cons, List.dropWhile_cons, ih]
    split <;> rfl

end Classes

namespace Lexer

variable {c d quote : Char} {a behind body : List Char} {n : Nat} {token : Token}

theorem pairIndex?_length (found : pairIndex? c a = some n) : n + 2 ≤ a.length := by
  fun_induction pairIndex? c a generalizing n with
  | case1 | case2 => cases found
  | case3 x y rest =>
    obtain rfl := Option.some.inj found
    simp
  | case4 x y rest _ ih =>
    obtain ⟨m, shorter, rfl⟩ := Option.map_eq_some_iff.mp found
    have bound := ih shorter
    simp only [List.length_cons] at bound ⊢
    omega

theorem pairIndex?_append_of_some (found : pairIndex? c a = some n) (behind : List Char) :
    pairIndex? c (a ++ behind) = some n := by
  fun_induction pairIndex? c a generalizing n with
  | case1 | case2 => cases found
  | case3 x y rest same =>
    rw [List.cons_append, List.cons_append, pairIndex?, if_pos same]
    exact found
  | case4 x y rest apart ih =>
    obtain ⟨m, shorter, rfl⟩ := Option.map_eq_some_iff.mp found
    rw [List.cons_append, List.cons_append, pairIndex?, if_neg apart, ← List.cons_append, ih shorter]
    rfl

theorem pairIndex?_cons_of_ne (other : d ≠ c) (cs : List Char) :
    pairIndex? c (d :: cs) = (pairIndex? c cs).map (· + 1) := by
  cases cs with
  | nil => rfl
  | cons e cs =>
    have apart : ¬(d = c ∧ e = c) := fun both => other both.1
    rw [pairIndex?, if_neg apart]

theorem pairIndex?_append_of_none (none : pairIndex? c a = none) (other : d ≠ c) :
    pairIndex? c (a ++ d :: behind) = (pairIndex? c behind).map (· + (a.length + 1)) := by
  fun_induction pairIndex? c a with
  | case1 => rw [List.nil_append, pairIndex?_cons_of_ne other]; rfl
  | case2 x =>
    have apart : ¬(x = c ∧ d = c) := fun both => other both.2
    rw [List.cons_append, List.nil_append, pairIndex?, if_neg apart, pairIndex?_cons_of_ne other, Option.map_map]
    rfl
  | case3 => cases none
  | case4 x y rest apart ih =>
    have shorter := ih (Option.map_eq_none_iff.mp none)
    rw [List.cons_append, List.cons_append, pairIndex?, if_neg apart, ← List.cons_append, shorter, Option.map_map]
    rfl

/-- The first pair in a text in front of a pair ends there at the latest. If it is not in the text,
it is that pair, or the last character of the text and the first of the pair. -/
theorem pairIndex?_append_pair (c : Char) (a behind : List Char) :
    pairIndex? c (a ++ c :: c :: behind) = pairIndex? c a ∧ (pairIndex? c a).isSome ∨
      pairIndex? c a = none ∧ (pairIndex? c (a ++ c :: c :: behind) = some a.length ∨
        ∃ front, a = front ++ [c] ∧ pairIndex? c (a ++ c :: c :: behind) = some front.length) := by
  fun_induction pairIndex? c a with
  | case1 => exact .inr ⟨rfl, .inl (if_pos ⟨rfl, rfl⟩)⟩
  | case2 x =>
    refine .inr ⟨rfl, ?_⟩
    by_cases same : x = c
    · subst same
      exact .inr ⟨[], rfl, if_pos ⟨rfl, rfl⟩⟩
    · refine .inl ?_
      rw [List.cons_append, List.nil_append, pairIndex?_cons_of_ne same, pairIndex?, if_pos ⟨rfl, rfl⟩]
      rfl
  | case3 x y rest same =>
    refine .inl ⟨?_, rfl⟩
    rw [List.cons_append, List.cons_append, pairIndex?, if_pos same]
  | case4 x y rest apart ih =>
    rw [List.cons_append, List.cons_append, pairIndex?, if_neg apart, ← List.cons_append]
    rcases ih with ⟨same, found⟩ | ⟨none, found | ⟨front, split, found⟩⟩
    · exact .inl ⟨congrArg _ same, by simpa using found⟩
    · exact .inr ⟨by rw [none]; rfl, .inl (by rw [found]; rfl)⟩
    · exact .inr ⟨by rw [none]; rfl, .inr ⟨x :: front, by rw [split]; rfl, by rw [found]; rfl⟩⟩

/-- Whether a tag opens is settled in front of the next two opening braces. -/
theorem opensTag_append (a behind : List Char) : opensTag (a ++ '\x7b' :: '\x7b' :: behind) = opensTag a := by
  unfold opensTag
  cases closes : pairIndex? '\x7d' a with
  | some stop =>
    have inside := pairIndex?_length closes
    rw [pairIndex?_append_of_some closes]
    dsimp only
    rw [List.take_append_of_le_length (by omega)]
  | none =>
    rw [pairIndex?_append_of_none closes (by decide), pairIndex?_cons_of_ne (by decide), Option.map_map]
    cases later : pairIndex? '\x7d' behind with
    | none => rfl
    | some stop =>
      have front : (a ++ '\x7b' :: '\x7b' :: behind).take (stop + 1 + (a.length + 1)) =
          a ++ '\x7b' :: '\x7b' :: behind.take stop := by
        have all : stop + 1 + (a.length + 1) = a.length + (stop + 2) := by omega
        rw [all, List.take_length_add_append]
        rfl
      have some : (pairIndex? '\x7b' (a ++ '\x7b' :: '\x7b' :: behind.take stop)).isSome := by
        rcases pairIndex?_append_pair '\x7b' a (behind.take stop) with
          ⟨same, found⟩ | ⟨-, found | ⟨_, _, found⟩⟩
        · rwa [same]
        · rw [found]
          rfl
        · rw [found]
          rfl
      show (pairIndex? _ ((a ++ '\x7b' :: '\x7b' :: behind).take (stop + 1 + (a.length + 1)))).isNone = false
      rw [front, Option.isNone_eq_false_iff]
      exact some

/-- The text in front of a pair of opening braces reaches as far without them, or it ends in front of
a brace that stands before them. -/
theorem openerIndex_append (a behind : List Char) :
    openerIndex (a ++ '\x7b' :: '\x7b' :: behind) = openerIndex a ∨
      ∃ front, a = front ++ ['\x7b'] ∧ openerIndex (a ++ '\x7b' :: '\x7b' :: behind) = front.length := by
  unfold openerIndex
  rcases pairIndex?_append_pair '\x7b' a behind with ⟨same, found⟩ | ⟨none, found | ⟨front, split, found⟩⟩
  · obtain ⟨n, found⟩ := Option.isSome_iff_exists.mp found
    exact .inl (by rw [same, found]; rfl)
  · exact .inl (by rw [none, found]; rfl)
  · exact .inr ⟨front, split, by rw [found]; rfl⟩

theorem stringBody?_append (found : stringBody? quote (a ++ behind) = some body) (inside : body.length < a.length) :
    stringBody? quote a = some body := by
  fun_induction stringBody? quote a generalizing body with
  | case1 => cases inside
  | case2 =>
    cases behind with
    | nil => rwa [List.append_nil, stringBody?, if_pos rfl] at found
    | cons d behind => rwa [List.cons_append, List.nil_append, stringBody?, if_pos rfl] at found
  | case3 c apart =>
    obtain rfl : body = [] := List.length_eq_zero_iff.mp (Nat.lt_one_iff.mp inside)
    obtain ⟨rest, same⟩ := stringBody?_eq_some found
    exact absurd (List.cons.inj same).1 apart
  | case4 => rwa [List.cons_append, List.cons_append, stringBody?, if_pos rfl] at found
  | case5 d cs apart ih =>
    rw [List.cons_append, List.cons_append, stringBody?, if_neg apart, if_pos rfl] at found
    obtain ⟨inner, shorter, rfl⟩ := Option.map_eq_some_iff.mp found
    rw [ih shorter (by simpa using inside)]
    rfl
  | case6 c d cs apart plain ih =>
    rw [List.cons_append, List.cons_append, stringBody?, if_neg apart, if_neg plain, ← List.cons_append] at found
    obtain ⟨inner, shorter, rfl⟩ := Option.map_eq_some_iff.mp found
    rw [ih shorter (by simpa using inside)]
    rfl

theorem fractionLength_append (other : d.isDigit = false) (point : d ≠ '.') (a : List Char) :
    fractionLength (a ++ d :: behind) = fractionLength a := by
  cases a with
  | nil =>
    rw [List.nil_append]
    unfold fractionLength
    split
    · rename_i same
      exact absurd (List.cons.inj same).1 point
    · rfl
  | cons c a =>
    by_cases same : c = '.'
    · subst same
      simp only [List.cons_append, fractionLength, spanDigits, takeWhile_append_stop a behind other]
      rfl
    · unfold fractionLength
      split
      · rename_i first
        exact absurd (List.cons.inj first).1 same
      · split
        · rename_i first
          exact absurd (List.cons.inj first).1 same
        · rfl

theorem numberLength_append (other : d.isDigit = false) (point : d ≠ '.') (a : List Char) :
    numberLength (a ++ d :: behind) = numberLength a := by
  unfold numberLength spanDigits
  dsimp only
  rw [takeWhile_append_stop a behind other, dropWhile_append_stop a behind other, fractionLength_append other point]

theorem fractionLength_le (cs : List Char) : fractionLength cs ≤ cs.length := by
  unfold fractionLength
  split
  · split
    · exact Nat.zero_le _
    · have shorter := (List.takeWhile_sublist (p := Char.isDigit) (l := ‹List Char›)).length_le
      simp only [spanDigits, List.length_cons]
      omega
  · exact Nat.zero_le _

theorem numberLength_le (cs : List Char) : numberLength cs ≤ cs.length := by
  have digits := congrArg List.length (List.takeWhile_append_dropWhile (p := Char.isDigit) (l := cs))
  have fraction := fractionLength_le (cs.dropWhile Char.isDigit)
  rw [List.length_append] at digits
  simp only [numberLength, spanDigits]
  omega

theorem numberToken_append (other : d.isDigit = false) (point : d ≠ '.') (a : List Char) :
    numberToken (a ++ d :: behind) = numberToken a := by
  unfold numberToken
  rw [numberLength_append other point, List.take_append_of_le_length (numberLength_le a)]
  simp only [spanDigits, takeWhile_append_stop a behind other, dropWhile_append_stop a behind other,
    fractionLength_append other point]
  rfl

/-- A brace is no part of an operator. -/
theorem pairOperator?_brace (brace : d = '\x7b' ∨ d = '\x7d') (c : Char) :
    pairOperator? c d = none ∧ pairOperator? d c = none := by
  rcases brace with rfl | rfl
  all_goals
    constructor
    · unfold pairOperator?
      split <;> simp_all
    · unfold pairOperator?
      split <;> simp_all

theorem tagPiece_quote (quote : c = '\x27' ∨ c = '"') (cs : List Char) :
    tagPiece c cs =
      match stringBody? c cs with
      | some body => ⟨stringToken body, body.length + 2⟩
      | none => ⟨.error .unendedString, 0⟩ := by
  have pair : cs.head?.bind (pairOperator? c) = none := by
    cases cs.head? with
    | none => rfl
    | some d => rcases quote with rfl | rfl <;> rfl
  have single : singleOperator? c = none := by rcases quote with rfl | rfl <;> rfl
  unfold tagPiece
  rw [pair]
  dsimp only
  rw [single]
  exact if_pos quote

/-- What a step inside a tag finds does not depend on a brace behind it, if that ends no string. -/
theorem tagPiece_congr (brace : d = '\x7b' ∨ d = '\x7d')
    (strings : c = '\x27' ∨ c = '"' → stringBody? c (a ++ d :: behind) = stringBody? c a) :
    tagPiece c (a ++ d :: behind) = tagPiece c a := by
  by_cases quote : c = '\x27' ∨ c = '"'
  · rw [tagPiece_quote quote, tagPiece_quote quote, strings quote]
  have pair : (a ++ d :: behind).head?.bind (pairOperator? c) = a.head?.bind (pairOperator? c) := by
    cases a with
    | nil => exact (pairOperator?_brace brace c).1
    | cons e a => rfl
  have plain : d.isDigit = false ∧ isWordChar d = false ∧ d ≠ '.' := by
    rcases brace with rfl | rfl <;> decide
  obtain ⟨noDigit, noWord, noPoint⟩ := plain
  have word : (a ++ d :: behind).takeWhile isWordChar = a.takeWhile isWordChar := takeWhile_append_stop a behind noWord
  have number : numberToken (c :: (a ++ d :: behind)) = numberToken (c :: a) :=
    numberToken_append noDigit noPoint (c :: a)
  have digits : numberLength (c :: (a ++ d :: behind)) = numberLength (c :: a) :=
    numberLength_append noDigit noPoint (c :: a)
  unfold tagPiece
  rw [pair, word, number, digits, if_neg quote, if_neg quote]

/-- What a step inside a tag finds in front of a brace, it finds without the brace. -/
theorem tagPiece_append (brace : d = '\x7b' ∨ d = '\x7d') (found : (tagPiece c (a ++ d :: behind)).found = .ok token)
    (inside : (tagPiece c (a ++ d :: behind)).length ≤ a.length + 1) :
    tagPiece c (a ++ d :: behind) = tagPiece c a := by
  refine tagPiece_congr brace fun quote => ?_
  rw [tagPiece_quote quote] at found inside
  cases closes : stringBody? c (a ++ d :: behind) with
  | none =>
    rw [closes] at found
    cases found
  | some body =>
    rw [closes] at inside
    have within : body.length + 2 ≤ a.length + 1 := inside
    rw [stringBody?_append closes (by omega)]

theorem tagPiece_brace (cs : List Char) : (tagPiece '\x7b' cs).found = .error .unexpectedCharacter := by
  have pair : cs.head?.bind (pairOperator? '\x7b') = none := by
    cases cs.head? with
    | none => rfl
    | some d => exact (pairOperator?_brace (.inl rfl) d).2
  unfold tagPiece
  rw [pair]
  rfl

theorem openerIndex_le (cs : List Char) : openerIndex cs ≤ cs.length := by
  unfold openerIndex
  cases found : pairIndex? '\x7b' cs with
  | none => exact Nat.le_refl _
  | some n =>
    have inside := pairIndex?_length found
    rw [Option.getD_some]
    omega

theorem textLength_le (cs : List Char) : textLength cs ≤ cs.length := by
  unfold textLength
  split
  · rename_i pair
    obtain ⟨rest, rfl⟩ := startsPair_eq_true pair
    have inside := openerIndex_le rest
    simp only [List.drop_succ_cons, List.drop_zero, List.length_cons]
    omega
  · exact openerIndex_le cs

/-- A pair at the start of a text stands there without what follows the text, unless it reaches over
its end. -/
theorem startsPair_append {e : Char} (apart : a ≠ [c] ∨ e ≠ c) (some : a ≠ []) :
    startsPair c (a ++ e :: behind) = startsPair c a := by
  match a with
  | [] => exact absurd rfl some
  | [d] =>
    have other : (d == c && e == c) = false := by
      rcases apart with apart | apart
      · have distinct : d ≠ c := fun same => apart (by rw [same])
        simp [distinct]
      · simp [apart]
    exact other
  | _ :: _ :: _ => rfl

theorem textLength_append (apart : a ≠ ['\x7b']) (some : a ≠ []) (behind : List Char) :
    textLength (a ++ '\x7b' :: '\x7b' :: behind) = textLength a ∨
      ∃ front, a = front ++ ['\x7b'] ∧ textLength (a ++ '\x7b' :: '\x7b' :: behind) = front.length := by
  unfold textLength
  rw [startsPair_append (.inl apart) some]
  split
  · rename_i pair
    obtain ⟨rest, rfl⟩ := startsPair_eq_true pair
    have dropped : (('\x7b' :: '\x7b' :: rest) ++ '\x7b' :: '\x7b' :: behind).drop 2 =
        rest ++ '\x7b' :: '\x7b' :: behind := rfl
    rw [dropped]
    rcases openerIndex_append rest behind with same | ⟨front, split, found⟩
    · exact .inl (by rw [same]; rfl)
    · refine .inr ⟨'\x7b' :: '\x7b' :: front, by rw [split]; rfl, ?_⟩
      rw [found, Nat.add_comm]
      rfl
  · exact openerIndex_append a behind

end Lexer

/-- A position `n` bytes further on. -/
def Position.moved (n : Nat) (p : Position) : Position :=
  { p with offset := p.offset + n }

theorem Position.after_moved (n : Nat) (p : Position) (cs : List Char) :
    (p.moved n).after cs = (p.after cs).moved n := by
  induction cs generalizing p with
  | nil => rfl
  | cons c cs ih =>
    have step : (p.moved n).next c = (p.next c).moved n := by
      unfold next moved
      split <;> simp only [Nat.add_right_comm]
    show ((p.moved n).next c).after cs = _
    rw [step, ih]
    rfl

/-- A token that stands `n` bytes further on, in the same line and column. -/
def Lexeme.moved (n : Nat) (lexeme : Lexeme) : Lexeme :=
  ⟨lexeme.token, lexeme.span.start.moved n, lexeme.span.stop.moved n⟩

theorem Lexeme.map_moved_zero (tokens : List Lexeme) : tokens.map (Lexeme.moved 0) = tokens :=
  List.map_id tokens

namespace Cursor

/-- A cursor in the front of a source alone, and the cursor at the same place of the whole source,
where the `tail` stands behind the front and offsets are `n` bytes larger. -/
structure Front (n : Nat) (tail : List Char) (alone whole : Cursor) : Prop where
  inTag : whole.inTag = alone.inTag
  position : whole.position = alone.position.moved n
  rest : whole.rest = alone.rest ++ tail

variable {n k : Nat} {tail behind b : List Char} {alone whole next last : Cursor} {lexeme : Lexeme} {token : Token}
  {inTag : Bool} {tokens : List Lexeme}

theorem Front.advance (front : Front n tail alone whole) (inside : k ≤ alone.rest.length) :
    Front n tail (alone.advance k) (whole.advance k) := by
  refine ⟨front.inTag, ?_, ?_⟩
  · simp only [Cursor.advance]
    rw [front.rest, List.take_append_of_le_length inside, front.position, Position.after_moved]
  · simp only [Cursor.advance]
    rw [front.rest, List.drop_append_of_le_length inside]

theorem Front.emit (front : Front n tail alone whole) (inside : k ≤ alone.rest.length)
    (emitted : whole.emit token k inTag = .lexeme lexeme next) :
    ∃ lexeme' next', alone.emit token k inTag = .lexeme lexeme' next' ∧ Front n tail next' next ∧
      lexeme = lexeme'.moved n := by
  have moved := front.advance inside
  simp only [Cursor.emit, Step.lexeme.injEq] at emitted
  obtain ⟨rfl, rfl⟩ := emitted
  refine ⟨_, _, rfl, ⟨rfl, moved.position, moved.rest⟩, ?_⟩
  rw [Lexeme.moved, front.position, moved.position]

/-- A step outside of a tag takes two braces at once. -/
theorem stepInText_pair (pair : Lexer.startsPair '\x7b' whole.rest = true)
    (stepped : whole.stepInText = .lexeme lexeme next) : next.rest.length + 2 ≤ whole.rest.length := by
  obtain ⟨rest, all⟩ := Lexer.startsPair_eq_true pair
  have cut (token : Token) (k : Nat) (inTag : Bool) (two : 2 ≤ k)
      (emitted : whole.emit token k inTag = .lexeme lexeme next) : next.rest.length + 2 ≤ whole.rest.length := by
    simp only [Cursor.emit, Step.lexeme.injEq] at emitted
    obtain ⟨-, rfl⟩ := emitted
    simp only [Cursor.advance, List.length_drop, all, List.length_cons]
    omega
  unfold stepInText at stepped
  rw [all] at stepped
  dsimp only at stepped
  split at stepped
  · exact cut _ 2 _ (Nat.le_refl 2) stepped
  · refine cut _ _ _ ?_ stepped
    unfold Lexer.textLength
    rw [if_pos (by rfl)]
    exact Nat.le_add_right ..

/-- No token ends between a brace and two more of them where the source goes on outside of a tag. -/
theorem Lexes.not_at_brace (lexes : Lexes whole tokens last) (outside : whole.inTag = false)
    (ends : last.rest = '\x7b' :: '\x7b' :: behind) : whole.rest ≠ '\x7b' :: last.rest := by
  intro brace
  cases lexes with
  | done => exact absurd (congrArg List.length brace) (by simp)
  | step stepped rest =>
    have pair : Lexer.startsPair '\x7b' whole.rest = true := by
      rw [brace, ends]
      rfl
    rw [Cursor.step, outside] at stepped
    have two := stepInText_pair pair stepped
    obtain ⟨taken, split, -⟩ := rest.taken
    rw [brace, split] at two
    simp only [List.length_cons, List.length_append] at two
    omega

/-- A step outside of a tag, unless it ends in front of a brace with two more behind it. -/
theorem Front.stepInText (front : Front n ('\x7b' :: '\x7b' :: behind) alone whole) (outside : whole.inTag = false)
    (stepped : whole.stepInText = .lexeme lexeme next) (split : next.rest = b ++ '\x7b' :: '\x7b' :: behind)
    (apart : next.inTag = false → b ≠ ['\x7b']) :
    ∃ lexeme' next', alone.stepInText = .lexeme lexeme' next' ∧ Front n ('\x7b' :: '\x7b' :: behind) next' next ∧
      lexeme = lexeme'.moved n := by
  obtain ⟨text, takes⟩ := stepInText_takes outside stepped
  have cut : alone.rest = text ++ b := by
    have all := takes.rest
    rw [List.nil_append, front.rest, split, ← List.append_assoc] at all
    exact List.append_cancel_right all
  have unbraced : alone.rest ≠ ['\x7b'] := by
    intro brace
    have rest := front.rest
    rw [brace] at rest
    have two := stepInText_pair (by rw [rest]; rfl) stepped
    rw [rest, split] at two
    simp only [List.length_append, List.length_cons, List.length_nil] at two
    omega
  cases first : alone.rest with
  | nil =>
    rw [first] at cut
    exact absurd (List.append_eq_nil_iff.mp cut.symm).1 takes.nonempty
  | cons c a =>
    rw [first] at unbraced
    have opens : (Lexer.startsPair '\x7b' (c :: a ++ '\x7b' :: '\x7b' :: behind) &&
          Lexer.opensTag ((a ++ '\x7b' :: '\x7b' :: behind).drop 1)) =
        (Lexer.startsPair '\x7b' (c :: a) && Lexer.opensTag (a.drop 1)) := by
      rw [Lexer.startsPair_append (.inl unbraced) (List.cons_ne_nil c a)]
      cases a with
      | nil => rfl
      | cons d a =>
        show (_ && Lexer.opensTag (a ++ '\x7b' :: '\x7b' :: behind)) = (_ && Lexer.opensTag a)
        rw [Lexer.opensTag_append]
    unfold Cursor.stepInText at stepped ⊢
    rw [front.rest, first, List.cons_append] at stepped
    rw [first]
    dsimp only at stepped ⊢
    rw [← List.cons_append, opens] at stepped
    split at stepped
    · rename_i both
      rw [if_pos both]
      have pair := (Bool.and_eq_true_iff.mp both).1
      obtain ⟨rest, same⟩ := Lexer.startsPair_eq_true pair
      exact front.emit (by rw [first, same]; simp) stepped
    · rename_i neither
      rw [if_neg neither]
      rcases Lexer.textLength_append unbraced (List.cons_ne_nil c a) behind with same | ⟨before, brace, length⟩
      · have inside := Lexer.textLength_le (c :: a)
        rw [same, List.take_append_of_le_length inside] at stepped
        exact front.emit (by rw [first]; exact inside) stepped
      · rw [length] at stepped
        simp only [Cursor.emit, Step.lexeme.injEq] at stepped
        obtain ⟨-, rfl⟩ := stepped
        have rest : whole.rest.drop before.length = b ++ '\x7b' :: '\x7b' :: behind := split
        rw [front.rest, first, brace, List.append_assoc, List.drop_left] at rest
        have same : ['\x7b'] ++ '\x7b' :: '\x7b' :: behind = b ++ '\x7b' :: '\x7b' :: behind := rest
        exact absurd (List.append_cancel_right same).symm (apart rfl)

theorem Front.skipBlanks (front : Front n ('\x7b' :: behind) alone whole) :
    Front n ('\x7b' :: behind) alone.skipBlanks whole.skipBlanks := by
  have same : whole.rest.takeWhile Text.isTagSpace = alone.rest.takeWhile Text.isTagSpace := by
    rw [front.rest]
    exact takeWhile_append_stop _ _ (by decide)
  have inside := (List.takeWhile_sublist (p := Text.isTagSpace) (l := alone.rest)).length_le
  unfold Cursor.skipBlanks
  rw [same]
  exact front.advance inside

/-- A step inside of a tag, if it ends in the front. -/
theorem Front.stepInTag (front : Front n ('\x7b' :: '\x7b' :: behind) alone whole)
    (stepped : whole.stepInTag = .lexeme lexeme next) (split : next.rest = b ++ '\x7b' :: '\x7b' :: behind) :
    ∃ lexeme' next', alone.stepInTag = .lexeme lexeme' next' ∧ Front n ('\x7b' :: '\x7b' :: behind) next' next ∧
      lexeme = lexeme'.moved n := by
  have front := front.skipBlanks
  unfold Cursor.stepInTag at stepped ⊢
  dsimp only at stepped ⊢
  rw [front.rest] at stepped
  cases first : alone.skipBlanks.rest with
  | nil =>
    rw [first] at stepped
    have none : (Lexer.tagPiece '\x7b' ('\x7b' :: behind)).found = .error .unexpectedCharacter := Lexer.tagPiece_brace _
    have unclosed : Lexer.startsPair '\x7d' ('\x7b' :: '\x7b' :: behind) = false := rfl
    simp only [List.nil_append, unclosed, none] at stepped
    cases stepped
  | cons c a =>
    have rest : whole.skipBlanks.rest = c :: (a ++ '\x7b' :: '\x7b' :: behind) := by
      rw [front.rest, first]
      rfl
    have pair : Lexer.startsPair '\x7d' (c :: (a ++ '\x7b' :: '\x7b' :: behind)) = Lexer.startsPair '\x7d' (c :: a) :=
      Lexer.startsPair_append (.inr (by decide)) (List.cons_ne_nil c a)
    rw [first, List.cons_append] at stepped
    dsimp only at stepped ⊢
    rw [pair] at stepped
    split at stepped
    · rename_i ends
      rw [if_pos ends]
      obtain ⟨rest, same⟩ := Lexer.startsPair_eq_true ends
      exact front.emit (by rw [first, same]; simp) stepped
    · rename_i goes
      rw [if_neg goes]
      split at stepped
      · rename_i token found
        have inside : (Lexer.tagPiece c (a ++ '\x7b' :: '\x7b' :: behind)).length ≤ a.length + 1 := by
          have taken := stepped
          simp only [Cursor.emit, Step.lexeme.injEq] at taken
          obtain ⟨-, rfl⟩ := taken
          have length := congrArg List.length split
          simp only [Cursor.advance, rest, List.length_drop, List.length_append, List.length_cons] at length
          omega
        have same := Lexer.tagPiece_append (.inl rfl) found inside
        rw [same] at found inside stepped
        rw [found]
        exact front.emit (by rw [first]; exact inside) stepped
      · cases stepped

theorem Front.step (front : Front n ('\x7b' :: '\x7b' :: behind) alone whole)
    (stepped : whole.step = .lexeme lexeme next) (split : next.rest = b ++ '\x7b' :: '\x7b' :: behind)
    (apart : next.inTag = false → b ≠ ['\x7b']) :
    ∃ lexeme' next', alone.step = .lexeme lexeme' next' ∧ Front n ('\x7b' :: '\x7b' :: behind) next' next ∧
      lexeme = lexeme'.moved n := by
  rw [Cursor.step] at stepped ⊢
  rw [front.inTag] at stepped
  split at stepped
  · rename_i inside
    rw [if_pos inside]
    exact front.stepInTag stepped split
  · rename_i outside
    rw [if_neg outside]
    exact front.stepInText (by rw [front.inTag]; simpa using outside) stepped split apart

/-- The tokens of the front of a source are found in the front alone. -/
theorem Front.lexes (front : Front n last.rest alone whole) (lexes : Lexes whole tokens last)
    (ends : last.rest = '\x7b' :: '\x7b' :: behind) :
    ∃ tokens' last', Lexes alone tokens' last' ∧ Front n last.rest last' last ∧
      tokens = tokens'.map (Lexeme.moved n) := by
  induction lexes generalizing alone with
  | done => exact ⟨[], alone, .done alone, front, rfl⟩
  | @step whole next last lexeme rest stepped later ih =>
    obtain ⟨taken, split, -⟩ := later.taken
    rw [ends] at front split
    have apart : next.inTag = false → taken ≠ ['\x7b'] := by
      rintro outside rfl
      exact later.not_at_brace outside ends (by rw [split, ends]; rfl)
    obtain ⟨lexeme', next', stepped', front', rfl⟩ := front.step stepped split apart
    rw [← ends] at front'
    obtain ⟨rest', last', lexes', frontLast, rfl⟩ := ih front' ends
    exact ⟨lexeme' :: rest', last', .step stepped' lexes', frontLast, rfl⟩

/-- Cut out of a source, a part in front of a tag that ends outside of one is cut into the same tokens. -/
theorem Front.lexemes (front : Front n last.rest alone whole) (lexes : Lexes whole tokens last)
    (ends : last.rest = '\x7b' :: '\x7b' :: behind) (outside : last.inTag = false) :
    alone.lexemes.problem = none ∧ tokens = alone.lexemes.tokens.map (Lexeme.moved n) := by
  obtain ⟨tokens', last', lexes', frontLast, rfl⟩ := front.lexes lexes ends
  have nothing : last'.rest = [] := by
    have rest := frontLast.rest
    exact List.append_left_eq_self.mp rest.symm
  have finished : last'.lexemes = ⟨[], none⟩ := by
    have stepped : last'.step = .finished := by
      rw [Cursor.step, ← frontLast.inTag, outside]
      unfold Cursor.stepInText
      rw [nothing]
      rfl
    rw [Cursor.lexemes]
    split <;> simp_all
  rw [lexes'.lexemes, finished]
  exact ⟨rfl, by rw [List.append_nil]⟩

end Cursor

end TextTemplate
