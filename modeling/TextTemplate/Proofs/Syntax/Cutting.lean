import Mathlib.Data.List.TakeWhile
import Mathlib.Data.String.Basic
import TextTemplate.Syntax.Lexer

/-!
What a step of a cursor takes from its source. Blanks inside a tag come first, then the characters of
the token; the cursor behind stands where the token ends, and the token tells whether that is inside
of a tag.
-/
namespace TextTemplate

open String (utf8Len)

namespace Text

theorem length_le_utf8Len (cs : List Char) : cs.length ≤ utf8Len cs := by
  induction cs with
  | nil => exact Nat.le_refl 0
  | cons c cs ih =>
    have positive := c.utf8Size_pos
    simp only [List.length_cons, String.utf8Len_cons]
    omega

variable {offset start stop : Nat}

theorem sliceFrom_append (offset start stop : Nat) (cs ds : List Char) :
    sliceFrom offset start stop (cs ++ ds) =
      sliceFrom offset start stop cs ++ sliceFrom (offset + utf8Len cs) start stop ds := by
  induction cs generalizing offset with
  | nil => simp [sliceFrom]
  | cons c cs ih =>
    simp only [List.cons_append, sliceFrom, ih, String.utf8Len_cons, Nat.add_comm (utf8Len cs), Nat.add_assoc]
    split <;> rfl

theorem sliceFrom_inside (cs : List Char) (behind : start ≤ offset) (before : offset + utf8Len cs ≤ stop) :
    sliceFrom offset start stop cs = cs := by
  induction cs generalizing offset with
  | nil => rfl
  | cons c cs ih =>
    have positive := c.utf8Size_pos
    rw [String.utf8Len_cons] at before
    rw [sliceFrom, if_pos (by omega), ih (by omega) (by omega)]

theorem sliceFrom_outside (cs : List Char) (apart : offset + utf8Len cs ≤ start ∨ stop ≤ offset) :
    sliceFrom offset start stop cs = [] := by
  induction cs generalizing offset with
  | nil => rfl
  | cons c cs ih =>
    have positive := c.utf8Size_pos
    rw [String.utf8Len_cons] at apart
    rw [sliceFrom, if_neg (by omega), ih (by omega)]

/-- A slice between the ends of two parts of a text is what stands between them. -/
theorem slice_between (before between behind : List Char) :
    slice (utf8Len before) (utf8Len (before ++ between)) (before ++ between ++ behind) = between := by
  rw [slice, String.utf8Len_append, sliceFrom_append, sliceFrom_append, sliceFrom_outside before (by omega),
    sliceFrom_inside between (by simp) (by simp), sliceFrom_outside behind (by simp), List.nil_append,
    List.append_nil]

/-- The characters of the last line of a text. -/
def lastLine (cs : List Char) : List Char :=
  (cs.reverse.takeWhile (· ≠ '\n')).reverse

theorem lastLine_concat (cs : List Char) (c : Char) :
    lastLine (cs ++ [c]) = if c = '\n' then [] else lastLine cs ++ [c] := by
  rw [lastLine, List.reverse_append, List.reverse_singleton, List.singleton_append, List.takeWhile_cons]
  by_cases ended : c = '\n'
  · simp [ended]
  · simp [ended, lastLine]

end Text

namespace Position

/-- The position behind a text that stands at the start of a source. -/
def behind (cs : List Char) : Position :=
  ⟨1 + cs.count '\n', (Text.lastLine cs).length, utf8Len cs⟩

@[simp]
theorem after_nil (p : Position) : p.after [] = p := rfl

@[simp]
theorem after_append (p : Position) (cs ds : List Char) : p.after (cs ++ ds) = (p.after cs).after ds :=
  List.foldl_append ..

theorem after_offset (p : Position) (cs : List Char) : (p.after cs).offset = p.offset + utf8Len cs := by
  induction cs generalizing p with
  | nil => rfl
  | cons c cs ih =>
    have first : p.after (c :: cs) = (p.next c).after cs := rfl
    have step : (p.next c).offset = p.offset + c.utf8Size := by
      unfold next
      split <;> rfl
    rw [first, ih, step, String.utf8Len_cons, Nat.add_comm (utf8Len cs), Nat.add_assoc]

theorem next_behind (cs : List Char) (c : Char) : (behind cs).next c = behind (cs ++ [c]) := by
  by_cases ended : c = '\n'
  · simp [behind, next, ended, Text.lastLine_concat, Nat.add_assoc]
  · simp [behind, next, ended, Text.lastLine_concat]

/-- Lines are counted by the line feeds, columns by the characters behind the last of them. -/
theorem after_eq_behind (before cs : List Char) : (behind before).after cs = behind (before ++ cs) := by
  induction cs generalizing before with
  | nil => rw [after_nil, List.append_nil]
  | cons c cs ih =>
    have first : (behind before).after (c :: cs) = ((behind before).next c).after cs := rfl
    rw [first, next_behind, ih, List.append_assoc, List.singleton_append]

end Position

namespace Token

/-- Whether a token stands inside of a tag. -/
def isInner : Token → Bool
  | .text _ | .tagStart => false
  | _ => true

/-- Whether the source behind a token is inside of a tag. -/
def leavesInTag : Token → Bool
  | .text _ | .tagEnd => false
  | _ => true

/-- The characters that a token which keeps its text is written with. -/
def Spells (cs : List Char) : Token → Prop
  | .text s | .word s => cs = s.toList
  | .plainString s => ∃ quote, (quote = '\x27' ∨ quote = '"') ∧ cs = quote :: s.toList ++ [quote]
  | .tagStart => cs = ['\x7b', '\x7b']
  | .tagEnd => cs = ['\x7d', '\x7d']
  | _ => True

end Token

namespace Lexer

theorem startsPair_eq_true {c : Char} {cs : List Char} (pair : startsPair c cs = true) :
    ∃ rest, cs = c :: c :: rest := by
  match cs with
  | [] => cases pair
  | [_] => cases pair
  | a :: b :: rest =>
    simp only [startsPair, Bool.and_eq_true, beq_iff_eq] at pair
    obtain ⟨rfl, rfl⟩ := pair
    exact ⟨rest, rfl⟩

theorem stringBody?_eq_some {quote : Char} {cs body : List Char} (found : stringBody? quote cs = some body) :
    ∃ rest, cs = body ++ quote :: rest := by
  fun_induction stringBody? quote cs generalizing body with
  | case1 => cases found
  | case2 =>
    obtain rfl := Option.some.inj found
    exact ⟨[], rfl⟩
  | case3 => cases found
  | case4 d cs =>
    obtain rfl := Option.some.inj found
    exact ⟨d :: cs, rfl⟩
  | case5 d cs _ ih =>
    obtain ⟨inner, shorter, rfl⟩ := Option.map_eq_some_iff.mp found
    obtain ⟨rest, rfl⟩ := ih shorter
    exact ⟨rest, rfl⟩
  | case6 c d cs _ _ ih =>
    obtain ⟨inner, shorter, rfl⟩ := Option.map_eq_some_iff.mp found
    obtain ⟨rest, same⟩ := ih shorter
    exact ⟨rest, by rw [same]; rfl⟩

theorem pairOperator?_cases {a b : Char} {token : Token} (found : pairOperator? a b = some token) :
    token.isInner = true ∧ token.leavesInTag = true ∧ ∀ cs, token.Spells cs := by
  unfold pairOperator? at found
  split at found
  case h_8 => cases found
  all_goals
    obtain rfl := Option.some.inj found
    exact ⟨rfl, rfl, fun _ => trivial⟩

theorem singleOperator?_cases {c : Char} {token : Token} (found : singleOperator? c = some token) :
    token.isInner = true ∧ token.leavesInTag = true ∧ ∀ cs, token.Spells cs := by
  unfold singleOperator? at found
  split at found
  case h_12 => cases found
  all_goals
    obtain rfl := Option.some.inj found
    exact ⟨rfl, rfl, fun _ => trivial⟩

theorem stringToken_cases {body : List Char} {token : Token} (found : stringToken body = .ok token) :
    token = .plainString (String.ofList body) ∨ ∃ s, token = .escapedString s := by
  unfold stringToken at found
  split at found
  · split at found
    · exact .inr ⟨_, (Except.ok.inj found).symm⟩
    · cases found
  · exact .inl (Except.ok.inj found).symm

theorem numberToken_cases {cs : List Char} {token : Token} (found : numberToken cs = .ok token) :
    (∃ i, token = .int i) ∨ ∃ x, token = .float x := by
  unfold numberToken at found
  dsimp only at found
  split at found
  · split at found
    · exact .inl ⟨_, (Except.ok.inj found).symm⟩
    · cases found
  · split at found
    · exact .inr ⟨_, (Except.ok.inj found).symm⟩
    · cases found

/-- Inside a tag stand tokens that do not end it, written as they say. -/
theorem tagPiece_cases {c : Char} {cs : List Char} {token : Token} (found : (tagPiece c cs).found = .ok token) :
    token.isInner = true ∧ token.leavesInTag = true ∧
      token.Spells ((c :: cs).take (tagPiece c cs).length) := by
  generalize cut : tagPiece c cs = piece at found ⊢
  unfold tagPiece at cut
  split at cut
  · rename_i operator pair
    subst cut
    obtain rfl := Except.ok.inj found
    obtain ⟨d, -, pair⟩ := Option.bind_eq_some_iff.mp pair
    obtain ⟨inner, leaves, spells⟩ := pairOperator?_cases pair
    exact ⟨inner, leaves, spells _⟩
  split at cut
  · rename_i operator single
    subst cut
    obtain rfl := Except.ok.inj found
    obtain ⟨inner, leaves, spells⟩ := singleOperator?_cases single
    exact ⟨inner, leaves, spells _⟩
  split at cut
  · rename_i quote
    split at cut
    · rename_i body closed
      subst cut
      obtain ⟨rest, rfl⟩ := stringBody?_eq_some closed
      rcases stringToken_cases found with rfl | ⟨s, rfl⟩
      · refine ⟨rfl, rfl, c, quote, ?_⟩
        simp [List.take_append, List.take_of_length_le]
      · exact ⟨rfl, rfl, trivial⟩
    · subst cut
      cases found
  split at cut
  · subst cut
    rcases numberToken_cases found with ⟨i, rfl⟩ | ⟨x, rfl⟩
    · exact ⟨rfl, rfl, trivial⟩
    · exact ⟨rfl, rfl, trivial⟩
  split at cut
  · subst cut
    obtain rfl := Except.ok.inj found
    have front : cs.take (cs.takeWhile isWordChar).length = cs.takeWhile isWordChar :=
      (List.prefix_iff_eq_take.mp (List.takeWhile_prefix _)).symm
    refine ⟨rfl, rfl, ?_⟩
    simp only [Token.Spells, List.take_succ_cons, front, String.toList_ofList]
  · subst cut
    cases found

end Lexer

namespace Cursor

/-- What a step that gives a token takes: blanks, and the characters of the token behind them. -/
structure Takes (cursor : Cursor) (lexeme : Lexeme) (next : Cursor) (blanks text : List Char) : Prop where
  rest : cursor.rest = blanks ++ (text ++ next.rest)
  blank : ∀ c ∈ blanks, Text.isTagSpace c = true
  outside : cursor.inTag = false → blanks = []
  nonempty : text ≠ []
  start : lexeme.span.start = cursor.position.after blanks
  stop : lexeme.span.stop = lexeme.span.start.after text
  position : next.position = lexeme.span.stop
  inTag : next.inTag = lexeme.token.leavesInTag
  inner : lexeme.token.isInner = cursor.inTag
  spells : lexeme.token.Spells text

theorem emit_takes {cursor next : Cursor} {token : Token} {n : Nat} {inTag : Bool} {lexeme : Lexeme}
    (emitted : cursor.emit token n inTag = .lexeme lexeme next) (positive : 0 < n) (nonempty : cursor.rest ≠ [])
    (leaves : inTag = token.leavesInTag) (inner : token.isInner = cursor.inTag)
    (spells : token.Spells (cursor.rest.take n)) :
    Takes cursor lexeme next [] (cursor.rest.take n) := by
  simp only [emit, advance, Step.lexeme.injEq] at emitted
  obtain ⟨rfl, rfl⟩ := emitted
  refine ⟨(List.take_append_drop n cursor.rest).symm, by simp, fun _ => rfl, ?_, rfl, rfl, rfl, leaves, inner,
    spells⟩
  have := List.length_pos_iff.mpr nonempty
  refine List.ne_nil_of_length_pos ?_
  rw [List.length_take]
  omega

theorem skipBlanks_rest (cursor : Cursor) :
    cursor.rest = cursor.rest.takeWhile Text.isTagSpace ++ cursor.skipBlanks.rest ∧
      cursor.skipBlanks.position = cursor.position.after (cursor.rest.takeWhile Text.isTagSpace) := by
  have taken : cursor.rest.take (cursor.rest.takeWhile Text.isTagSpace).length =
      cursor.rest.takeWhile Text.isTagSpace :=
    (List.prefix_iff_eq_take.mp (List.takeWhile_prefix _)).symm
  refine ⟨?_, congrArg cursor.position.after taken⟩
  conv => lhs; rw [← List.take_append_drop (cursor.rest.takeWhile Text.isTagSpace).length cursor.rest, taken]
  rfl

theorem stepInText_takes {cursor next : Cursor} {lexeme : Lexeme} (outside : cursor.inTag = false)
    (stepped : cursor.stepInText = .lexeme lexeme next) : ∃ text, Takes cursor lexeme next [] text := by
  unfold stepInText at stepped
  split at stepped
  · cases stepped
  rename_i c cs front
  have nonempty : cursor.rest ≠ [] := by simp [front]
  split at stepped
  · rename_i opens
    obtain ⟨rest, same⟩ := Lexer.startsPair_eq_true (Bool.and_eq_true_iff.mp opens).1
    refine ⟨_, emit_takes stepped (by omega) nonempty rfl outside.symm ?_⟩
    rw [front, same]
    rfl
  · refine ⟨_, emit_takes stepped (Lexer.textLength_pos c cs) nonempty rfl outside.symm ?_⟩
    rw [front]
    exact String.toList_ofList.symm

theorem stepInTag_takes {cursor next : Cursor} {lexeme : Lexeme} (inside : cursor.inTag = true)
    (stepped : cursor.stepInTag = .lexeme lexeme next) : ∃ blanks text, Takes cursor lexeme next blanks text := by
  obtain ⟨skipped, position⟩ := cursor.skipBlanks_rest
  have inside' : cursor.skipBlanks.inTag = true := inside
  -- the token is taken at the place behind the blanks
  have token : ∃ text, Takes cursor.skipBlanks lexeme next [] text := by
    unfold stepInTag at stepped
    dsimp only at stepped
    split at stepped
    · cases stepped
    rename_i c cs front
    have nonempty : cursor.skipBlanks.rest ≠ [] := by simp [front]
    split at stepped
    · rename_i ends
      obtain ⟨rest, same⟩ := Lexer.startsPair_eq_true ends
      refine ⟨_, emit_takes stepped (by omega) nonempty rfl inside'.symm ?_⟩
      rw [front, same]
      rfl
    · split at stepped
      · rename_i found
        obtain ⟨inner, leaves, spells⟩ := Lexer.tagPiece_cases found
        refine ⟨_, emit_takes stepped (Lexer.tagPiece_pos found) nonempty leaves.symm (inner.trans inside'.symm) ?_⟩
        rw [front]
        exact spells
      · cases stepped
  obtain ⟨text, taken⟩ := token
  refine ⟨cursor.rest.takeWhile Text.isTagSpace, text, ?_, fun c found => List.mem_takeWhile_imp found,
    fun outside => ?_, taken.nonempty, ?_, taken.stop, taken.position, taken.inTag, taken.inner, taken.spells⟩
  · exact skipped.trans (congrArg _ taken.rest)
  · rw [inside] at outside
    cases outside
  · exact taken.start.trans position

theorem step_takes {cursor next : Cursor} {lexeme : Lexeme} (stepped : cursor.step = .lexeme lexeme next) :
    ∃ blanks text, Takes cursor lexeme next blanks text := by
  unfold step at stepped
  split at stepped
  · rename_i inside
    exact stepInTag_takes inside stepped
  · rename_i outside
    exact ⟨[], stepInText_takes (by simpa using outside) stepped⟩

/-- A source is only finished at its end. -/
theorem step_finished {cursor : Cursor} (stepped : cursor.step = .finished) :
    cursor.rest = [] ∧ cursor.inTag = false := by
  unfold step at stepped
  split at stepped
  · unfold stepInTag emit at stepped
    dsimp only at stepped
    repeat' split at stepped
    all_goals cases stepped
  · rename_i outside
    unfold stepInText emit at stepped
    split at stepped
    · exact ⟨by assumption, by simpa using outside⟩
    · dsimp only at stepped
      split at stepped
      all_goals cases stepped

/-- Steps that give tokens, one after the other. -/
inductive Lexes : Cursor → List Lexeme → Cursor → Prop where
  | done (cursor : Cursor) : Lexes cursor [] cursor
  | step {cursor next last : Cursor} {lexeme : Lexeme} {rest : List Lexeme} :
    cursor.step = .lexeme lexeme next → Lexes next rest last → Lexes cursor (lexeme :: rest) last

variable {cursor middle last : Cursor} {first rest : List Lexeme}

theorem lexes_append : Lexes cursor (first ++ rest) last ↔
    ∃ middle, Lexes cursor first middle ∧ Lexes middle rest last := by
  constructor
  · intro lexes
    induction first generalizing cursor with
    | nil => exact ⟨cursor, .done cursor, lexes⟩
    | cons lexeme first ih =>
      cases lexes with
      | step stepped lexes =>
        obtain ⟨middle, front, back⟩ := ih lexes
        exact ⟨middle, .step stepped front, back⟩
  · rintro ⟨middle, front, back⟩
    induction front with
    | done => exact back
    | step stepped _ ih => exact .step stepped (ih back)

/-- Behind some tokens, the source is cut into the others. -/
theorem Lexes.lexemes (lexes : Lexes cursor first last) :
    cursor.lexemes = ⟨first ++ last.lexemes.tokens, last.lexemes.problem⟩ := by
  induction lexes with
  | done => rfl
  | step stepped _ ih =>
    rw [Cursor.lexemes]
    split
    · simp_all
    · simp_all
    · rename_i found
      rw [stepped] at found
      cases found
      rw [ih]
      rfl

/-- All tokens of a source are steps from its start, and lead to its end or to the first problem. -/
theorem lexes_lexemes (cursor : Cursor) : ∃ last, Lexes cursor cursor.lexemes.tokens last ∧
    match cursor.lexemes.problem with
    | none => last.step = .finished
    | some problem => ∃ next, last.step = .failed problem next := by
  fun_induction Cursor.lexemes cursor with
  | case1 cursor stepped => exact ⟨cursor, .done cursor, stepped⟩
  | case2 cursor problem next stepped => exact ⟨cursor, .done cursor, next, stepped⟩
  | case3 cursor lexeme next stepped rest ih =>
    obtain ⟨last, lexes, ends⟩ := ih
    exact ⟨last, .step stepped lexes, ends⟩

/-- Some tokens take what stands between the cursors, and their positions are counted along it. -/
theorem Lexes.taken (lexes : Lexes cursor first last) :
    ∃ taken, cursor.rest = taken ++ last.rest ∧ last.position = cursor.position.after taken := by
  induction lexes with
  | done => exact ⟨[], rfl, rfl⟩
  | step stepped _ ih =>
    obtain ⟨blanks, text, takes⟩ := step_takes stepped
    obtain ⟨taken, rest, position⟩ := ih
    refine ⟨blanks ++ text ++ taken, ?_, ?_⟩
    · rw [takes.rest, rest]
      simp only [List.append_assoc]
    · rw [position, takes.position, takes.stop, takes.start]
      simp only [Position.after_append]

end Cursor

end TextTemplate
