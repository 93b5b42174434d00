import TextTemplate.Proofs.Syntax.Recutting
import TextTemplate.Proofs.Syntax.Tiling

/-!
Cutting two sources that are joined. Where the first one ends with the end of a tag, no step in it looks
further than up to its last two braces, or what it finds behind them makes no difference; the second one
is cut as it is alone, behind the first.
-/
namespace TextTemplate

open String (utf8Len)

namespace Lexer

variable {c d quote : Char} {a behind body : List Char} {n : Nat} {token : Token}

theorem stringBody?_append_of_some (found : stringBody? quote a = some body) (behind : List Char) :
    stringBody? quote (a ++ behind) = some body := by
  fun_induction stringBody? quote a generalizing body with
  | case1 => cases found
  | case2 =>
    cases behind with
    | nil => rwa [List.append_nil, stringBody?, if_pos rfl]
    | cons d behind => rwa [List.cons_append, List.nil_append, stringBody?, if_pos rfl]
  | case3 => cases found
  | case4 => rwa [List.cons_append, List.cons_append, stringBody?, if_pos rfl]
  | case5 d cs apart ih =>
    obtain ⟨inner, shorter, rfl⟩ := Option.map_eq_some_iff.mp found
    rw [List.cons_append, List.cons_append, stringBody?, if_neg apart, if_pos rfl, ih shorter]
    rfl
  | case6 c d cs apart plain ih =>
    obtain ⟨inner, shorter, rfl⟩ := Option.map_eq_some_iff.mp found
    rw [List.cons_append, List.cons_append, stringBody?, if_neg apart, if_neg plain, ← List.cons_append, ih shorter]
    rfl

/-- What a step inside a tag finds, it finds in front of a brace too. -/
theorem tagPiece_append_of_found (brace : d = '\x7b' ∨ d = '\x7d') (found : (tagPiece c a).found = .ok token)
    (behind : List Char) : tagPiece c (a ++ d :: behind) = tagPiece c a := by
  refine tagPiece_congr brace fun quote => ?_
  rw [tagPiece_quote quote] at found
  cases closes : stringBody? c a with
  | none =>
    rw [closes] at found
    cases found
  | some body => exact stringBody?_append_of_some closes _

/-- In front of the end of a tag, what stands behind it makes no difference. -/
theorem tagPiece_append_of_closed (found : (tagPiece c (a ++ ['\x7d', '\x7d'])).found = .ok token)
    (inside : (tagPiece c (a ++ ['\x7d', '\x7d'])).length ≤ a.length + 1) (behind : List Char) :
    tagPiece c (a ++ '\x7d' :: '\x7d' :: behind) = tagPiece c (a ++ ['\x7d', '\x7d']) := by
  have alone := tagPiece_append (.inr rfl) found inside
  rw [alone] at found ⊢
  exact tagPiece_append_of_found (.inr rfl) found _

theorem isSome_pairIndex?_pair (c : Char) (a behind : List Char) : (pairIndex? c (a ++ c :: c :: behind)).isSome := by
  rcases pairIndex?_append_pair c a behind with ⟨same, found⟩ | ⟨-, found | ⟨_, _, found⟩⟩
  · rwa [same]
  · rw [found]
    rfl
  · rw [found]
    rfl

/-- Whether a tag opens is settled where one closes. -/
theorem opensTag_append_of_closed (closes : (pairIndex? '\x7d' a).isSome) (behind : List Char) :
    opensTag (a ++ behind) = opensTag a := by
  obtain ⟨stop, found⟩ := Option.isSome_iff_exists.mp closes
  have inside := pairIndex?_length found
  rw [opensTag, opensTag, found, pairIndex?_append_of_some found]
  dsimp only
  rw [List.take_append_of_le_length (by omega)]

theorem openerIndex_append_of_lt (inside : openerIndex a < a.length) (behind : List Char) :
    openerIndex (a ++ behind) = openerIndex a := by
  unfold openerIndex at inside ⊢
  cases found : pairIndex? '\x7b' a with
  | none =>
    rw [found] at inside
    exact absurd inside (Nat.lt_irrefl _)
  | some n =>
    rw [pairIndex?_append_of_some found]
    rfl

theorem startsPair_append_of_two (two : 2 ≤ a.length) (behind : List Char) :
    startsPair c (a ++ behind) = startsPair c a := by
  match a with
  | [] | [_] => simp at two
  | _ :: _ :: _ => rfl

/-- A text that ends in front of the end of what is there ends there. -/
theorem textLength_append_of_lt (inside : textLength a < a.length) (behind : List Char) :
    textLength (a ++ behind) = textLength a := by
  match a with
  | [] => exact absurd inside (Nat.lt_irrefl 0)
  | [_] => exact absurd inside (Nat.lt_irrefl 1)
  | x :: y :: a =>
    have pair : startsPair '\x7b' (x :: y :: a ++ behind) = startsPair '\x7b' (x :: y :: a) :=
      startsPair_append_of_two (by simp) behind
    unfold textLength at inside ⊢
    rw [pair]
    split
    · rename_i opens
      rw [if_pos opens] at inside
      have shorter : openerIndex a < a.length := by
        simp only [List.drop_succ_cons, List.drop_zero, List.length_cons] at inside
        omega
      exact congrArg (2 + ·) (openerIndex_append_of_lt shorter behind)
    · rename_i plain
      rw [if_neg plain] at inside
      exact openerIndex_append_of_lt inside behind

end Lexer

namespace Cursor

variable {n k : Nat} {tail b : List Char} {alone whole next last : Cursor} {lexeme : Lexeme} {token : Token}
  {inTag : Bool} {tokens : List Lexeme}

theorem emit_rest (emitted : alone.emit token k inTag = .lexeme lexeme next) : next.rest = alone.rest.drop k := by
  simp only [Cursor.emit, Step.lexeme.injEq] at emitted
  rw [← emitted.2]
  rfl

theorem emit_token (emitted : alone.emit token k inTag = .lexeme lexeme next) : lexeme.token = token := by
  simp only [Cursor.emit, Step.lexeme.injEq] at emitted
  rw [← emitted.1]

/-- The front of a source takes a token alone that the whole takes there. -/
theorem Front.emitted (front : Front n tail alone whole) (inside : k ≤ alone.rest.length)
    (emitted : alone.emit token k inTag = .lexeme lexeme next) :
    ∃ next', whole.emit token k inTag = .lexeme (lexeme.moved n) next' ∧ Front n tail next next' := by
  have moved := front.advance inside
  simp only [Cursor.emit, Step.lexeme.injEq] at emitted
  obtain ⟨rfl, rfl⟩ := emitted
  refine ⟨{ whole.advance k with inTag }, ?_, ⟨rfl, moved.position, moved.rest⟩⟩
  simp only [Cursor.emit, Lexeme.moved]
  rw [front.position, moved.position]

/-- A step outside of a tag, if a tag ends behind it. -/
theorem Front.stepInText_onto (front : Front n tail alone whole) (outside : alone.inTag = false)
    (stepped : alone.stepInText = .lexeme lexeme next) (closes : next.rest = b ++ ['\x7d', '\x7d']) :
    ∃ next', whole.stepInText = .lexeme (lexeme.moved n) next' ∧ Front n tail next next' := by
  obtain ⟨text, takes⟩ := stepInText_takes outside stepped
  have cut : alone.rest = text ++ (b ++ ['\x7d', '\x7d']) := closes ▸ takes.rest
  have long : 2 ≤ alone.rest.length := by
    simp only [cut, List.length_append, List.length_cons, List.length_nil]
    omega
  have closed (pair : Lexer.startsPair '\x7b' alone.rest = true) :
      (Lexer.pairIndex? '\x7d' (alone.rest.drop 2)).isSome := by
    have two := stepInText_pair pair stepped
    have split : alone.rest.drop 2 = text.drop 2 ++ b ++ ['\x7d', '\x7d'] := by
      have taken : 2 ≤ text.length := by
        have length := congrArg List.length cut
        rw [closes] at two
        simp only [List.length_append] at two length
        omega
      rw [cut, List.drop_append_of_le_length taken, List.append_assoc]
    rw [split]
    exact Lexer.isSome_pairIndex?_pair '\x7d' _ []
  unfold Cursor.stepInText at stepped ⊢
  rw [front.rest]
  cases first : alone.rest with
  | nil =>
    rw [first] at long
    cases long
  | cons c a =>
    rw [first] at stepped closed long
    have opens : (Lexer.startsPair '\x7b' (c :: a ++ tail) && Lexer.opensTag ((a ++ tail).drop 1)) =
        (Lexer.startsPair '\x7b' (c :: a) && Lexer.opensTag (a.drop 1)) := by
      rw [Lexer.startsPair_append_of_two long]
      cases pair : Lexer.startsPair '\x7b' (c :: a) with
      | false => rfl
      | true =>
        obtain ⟨rest, same⟩ := Lexer.startsPair_eq_true pair
        obtain ⟨rfl, rfl⟩ := List.cons.inj same
        exact congrArg (true && ·) (Lexer.opensTag_append_of_closed (closed pair) tail)
    rw [List.cons_append]
    dsimp only at stepped ⊢
    rw [← List.cons_append, opens]
    split at stepped
    · rename_i both
      rw [if_pos both]
      exact front.emitted (by rw [first]; exact long) stepped
    · rename_i neither
      rw [if_neg neither]
      have inside : Lexer.textLength (c :: a) < (c :: a).length := by
        have rest := emit_rest stepped
        rw [first, closes] at rest
        by_contra long
        rw [List.drop_eq_nil_of_le (Nat.le_of_not_lt long)] at rest
        simp at rest
      rw [Lexer.textLength_append_of_lt inside, List.take_append_of_le_length (Nat.le_of_lt inside)]
      exact front.emitted (by rw [first]; exact Nat.le_of_lt inside) stepped

theorem Front.skipBlanks_onto (front : Front n tail alone whole)
    (solid : ∃ c ∈ alone.rest, Text.isTagSpace c = false) : Front n tail alone.skipBlanks whole.skipBlanks := by
  obtain ⟨c, found, solid⟩ := solid
  obtain ⟨before, behind, split⟩ := List.append_of_mem found
  have same : whole.rest.takeWhile Text.isTagSpace = alone.rest.takeWhile Text.isTagSpace := by
    rw [front.rest, split, List.append_assoc, List.cons_append, takeWhile_append_stop _ _ solid,
      takeWhile_append_stop _ _ solid]
  have inside := (List.takeWhile_sublist (p := Text.isTagSpace) (l := alone.rest)).length_le
  unfold Cursor.skipBlanks
  rw [same]
  exact front.advance inside

/-- A step inside of a tag that ends it, or if a tag ends behind it. -/
theorem Front.stepInTag_onto (front : Front n tail alone whole) (inTag : alone.inTag = true)
    (stepped : alone.stepInTag = .lexeme lexeme next)
    (closes : lexeme.token = .tagEnd ∨ next.rest = b ++ ['\x7d', '\x7d']) :
    ∃ next', whole.stepInTag = .lexeme (lexeme.moved n) next' ∧ Front n tail next next' := by
  have solid : ∃ c ∈ alone.rest, Text.isTagSpace c = false := by
    obtain ⟨blanks, text, takes⟩ := stepInTag_takes inTag stepped
    refine ⟨'\x7d', ?_, rfl⟩
    rw [takes.rest]
    rcases closes with ends | later
    · have braces := takes.spells
      rw [ends] at braces
      obtain rfl : text = ['\x7d', '\x7d'] := braces
      simp
    · simp [later]
  replace front := front.skipBlanks_onto solid
  unfold Cursor.stepInTag at stepped ⊢
  dsimp only at stepped ⊢
  rw [front.rest]
  cases first : alone.skipBlanks.rest with
  | nil =>
    rw [first] at stepped
    cases stepped
  | cons c a =>
    rw [first] at stepped
    dsimp only at stepped
    split at stepped
    · rename_i ends
      obtain ⟨rest, same⟩ := Lexer.startsPair_eq_true ends
      rw [same, List.cons_append, List.cons_append]
      exact front.emitted (by rw [first, same]; simp) stepped
    rename_i goes
    split at stepped
    rotate_left
    · cases stepped
    rename_i token found
    have later : next.rest = b ++ ['\x7d', '\x7d'] := by
      refine closes.resolve_left fun ends => ?_
      obtain ⟨-, leaves, -⟩ := Lexer.tagPiece_cases found
      have same := (emit_token stepped).symm.trans ends
      rw [same] at leaves
      cases leaves
    -- the piece and what is left up to the end of the tag
    have rest := emit_rest stepped
    obtain ⟨m, length⟩ := Nat.exists_eq_add_of_le' (Lexer.tagPiece_pos found)
    rw [first, later, length, List.drop_succ_cons] at rest
    have within : m ≤ a.length := by
      by_contra long
      rw [List.drop_eq_nil_of_le (Nat.le_of_not_le long)] at rest
      simp at rest
    obtain ⟨before, rfl, inside⟩ : ∃ before, a = before ++ ['\x7d', '\x7d'] ∧ m ≤ before.length := by
      refine ⟨a.take m ++ b, ?_, ?_⟩
      · rw [List.append_assoc, rest, List.take_append_drop]
      · rw [List.length_append, List.length_take_of_le within]
        omega
    have onto : c :: (before ++ ['\x7d', '\x7d']) ++ tail = c :: (before ++ '\x7d' :: '\x7d' :: tail) := by simp
    have pair : Lexer.startsPair '\x7d' (c :: (before ++ '\x7d' :: '\x7d' :: tail)) =
        Lexer.startsPair '\x7d' (c :: (before ++ ['\x7d', '\x7d'])) := by
      rw [← onto]
      exact Lexer.startsPair_append_of_two (by simp) tail
    have piece := Lexer.tagPiece_append_of_closed found (by omega) tail
    rw [onto]
    dsimp only
    rw [pair, if_neg goes, piece, found]
    refine front.emitted ?_ stepped
    rw [first, length]
    simp only [List.length_cons, List.length_append]
    omega

theorem Front.step_onto (front : Front n tail alone whole) (stepped : alone.step = .lexeme lexeme next)
    (closes : lexeme.token = .tagEnd ∨ next.rest = b ++ ['\x7d', '\x7d']) :
    ∃ next', whole.step = .lexeme (lexeme.moved n) next' ∧ Front n tail next next' := by
  rw [Cursor.step] at stepped ⊢
  rw [front.inTag]
  split at stepped
  · rename_i inside
    rw [if_pos inside]
    exact front.stepInTag_onto inside stepped closes
  · rename_i outside
    rw [if_neg outside]
    have outside : alone.inTag = false := by simpa using outside
    refine front.stepInText_onto outside stepped (closes.resolve_left fun ends => ?_)
    obtain ⟨text, takes⟩ := stepInText_takes outside stepped
    have inner := takes.inner
    rw [ends, outside] at inner
    cases inner

/-- Whether the last of some tokens ends a tag. -/
def EndsTag (tokens : List Lexeme) : Prop :=
  ∃ last ∈ tokens.getLast?, last.token = .tagEnd

/-- Tokens that lead to the end of a source, the last of which ends a tag, are written with two braces at the end. -/
theorem Lexes.rest_eq (lexes : Lexes alone tokens last) (nothing : last.rest = []) (ends : EndsTag tokens) :
    ∃ b, alone.rest = b ++ ['\x7d', '\x7d'] := by
  obtain ⟨close, found, ends⟩ := ends
  obtain ⟨before, rfl⟩ := List.getLast?_eq_some_iff.mp found
  obtain ⟨middle, first, rest⟩ := lexes_append.mp lexes
  obtain ⟨taken, split, -⟩ := first.taken
  cases rest with
  | step stepped done =>
    cases done
    obtain ⟨blanks, text, takes⟩ := step_takes stepped
    have braces := takes.spells
    rw [ends] at braces
    obtain rfl : text = ['\x7d', '\x7d'] := braces
    refine ⟨taken ++ blanks, ?_⟩
    rw [split, takes.rest, nothing]
    simp

/-- Where the last token ends a tag at the end of a source, the tokens are the same with more behind them. -/
theorem Front.lexes_onto (front : Front n tail alone whole) (lexes : Lexes alone tokens last) (nothing : last.rest = [])
    (ends : EndsTag tokens) :
    ∃ last', Lexes whole (tokens.map (Lexeme.moved n)) last' ∧ Front n tail last last' := by
  induction lexes generalizing whole with
  | done =>
    obtain ⟨_, found, -⟩ := ends
    cases found
  | @step alone next last lexeme rest stepped later ih =>
    cases rest with
    | nil =>
      cases later
      obtain ⟨close, found, ends⟩ := ends
      obtain rfl := Option.some.inj found
      obtain ⟨next', stepped', front⟩ := front.step_onto (b := []) stepped (.inl ends)
      exact ⟨next', .step stepped' (.done next'), front⟩
    | cons other rest =>
      have ends : EndsTag (other :: rest) := by simpa [EndsTag, List.getLast?_cons] using ends
      obtain ⟨b, closes⟩ := later.rest_eq nothing ends
      obtain ⟨next', stepped', front⟩ := front.step_onto stepped (.inr closes)
      obtain ⟨last', lexes', frontLast⟩ := ih front nothing ends
      exact ⟨last', .step stepped' lexes', frontLast⟩

end Cursor

namespace Text

variable {cs : List Char} {d : Char}

theorem dropReturn_append (solid : d ≠ '\r') (ds : List Char) :
    dropReturn (cs ++ [d] ++ ds) = cs ++ [d] ++ dropReturn ds := by
  rcases List.eq_nil_or_concat' ds with rfl | ⟨front, e, rfl⟩
  · rw [List.append_nil, dropReturn, List.getLast?_concat, if_neg (by simpa using solid)]
    simp [dropReturn]
  · rw [← List.append_assoc]
    simp only [dropReturn, List.getLast?_concat, List.dropLast_concat]
    split
    · rfl
    · rw [List.append_assoc]

/-- The line end behind two texts is the one behind the second, unless the first could be cut within one. -/
theorem dropLineEnd_append (unended : d ≠ '\n') (solid : d ≠ '\r') (ds : List Char) :
    dropLineEnd (cs ++ [d] ++ ds) = cs ++ [d] ++ dropLineEnd ds := by
  rcases List.eq_nil_or_concat' ds with rfl | ⟨front, e, rfl⟩
  · rw [List.append_nil, dropLineEnd, List.getLast?_concat, if_neg (by simpa using unended)]
    simp [dropLineEnd]
  · rw [← List.append_assoc]
    simp only [dropLineEnd, List.getLast?_concat, List.dropLast_concat]
    split
    · exact dropReturn_append solid front
    · rw [List.append_assoc]

end Text

/-- The position `q` of a text in a source where the text starts at `p`. -/
def Position.beyond (p q : Position) : Position :=
  ⟨p.line + (q.line - 1), if q.line = 1 then p.column + q.column else q.column, p.offset + q.offset⟩

/-- A change of positions that goes along with the text behind some position. -/
def Position.Follows (place : Position → Position) (p : Position) : Prop :=
  ∀ cs, place (p.after cs) = (place p).after cs

def Span.map (place : Position → Position) (span : Span) : Span :=
  ⟨place span.start, place span.stop⟩

@[simp]
theorem Span.map_upTo (place : Position → Position) (a b : Span) :
    (a.upTo b).map place = (a.map place).upTo (b.map place) := rfl

def Lexeme.map (place : Position → Position) (lexeme : Lexeme) : Lexeme :=
  ⟨lexeme.token, lexeme.span.map place⟩

@[simp]
theorem Lexeme.token_map (place : Position → Position) (lexeme : Lexeme) : (lexeme.map place).token = lexeme.token := rfl

@[simp]
theorem Lexeme.map_mk (place : Position → Position) (token : Token) (span : Span) :
    Lexeme.map place ⟨token, span⟩ = ⟨token, span.map place⟩ := rfl

def Lexemes.map (place : Position → Position) (lexemes : Lexemes) : Lexemes :=
  ⟨lexemes.tokens.map (Lexeme.map place), lexemes.problem⟩

namespace Position

variable {place : Position → Position} {p q : Position}

theorem Follows.after (follows : Follows place p) (cs : List Char) : Follows place (p.after cs) := by
  intro ds
  rw [← after_append, follows, follows, after_append]

theorem beyond_next (first : 1 ≤ q.line) (c : Char) : p.beyond (q.next c) = (p.beyond q).next c := by
  unfold next
  split
  · have later : ¬q.line + 1 = 1 := by omega
    have lines : p.line + (q.line + 1 - 1) = p.line + (q.line - 1) + 1 := by omega
    simp only [beyond, if_neg later, lines, Nat.add_assoc]
  · simp only [beyond, Nat.add_assoc]
    split <;> rfl

theorem line_le_next (q : Position) (c : Char) : q.line ≤ (q.next c).line := by
  unfold next
  split
  · exact Nat.le_succ _
  · exact Nat.le_refl _

theorem beyond_follows (p : Position) (first : 1 ≤ q.line) : Follows p.beyond q := by
  intro cs
  induction cs generalizing q with
  | nil => rfl
  | cons c cs ih =>
    show p.beyond ((q.next c).after cs) = ((p.beyond q).next c).after cs
    rw [ih (Nat.le_trans first (line_le_next q c)), beyond_next first]

end Position

namespace Cursor

/-- The same place where positions are counted in another way. -/
def map (place : Position → Position) (cursor : Cursor) : Cursor :=
  { cursor with position := place cursor.position }

def Step.map (place : Position → Position) : Step → Step
  | .finished => .finished
  | .lexeme found next => .lexeme (found.map place) (next.map place)
  | .failed problem next => .failed problem (next.map place)

variable {place : Position → Position} {cursor : Cursor}

theorem map_advance (follows : Position.Follows place cursor.position) (n : Nat) :
    (cursor.map place).advance n = (cursor.advance n).map place := by
  simp only [Cursor.advance, Cursor.map, follows _]

theorem map_emit (follows : Position.Follows place cursor.position) (token : Token) (n : Nat) (inTag : Bool) :
    (cursor.map place).emit token n inTag = (cursor.emit token n inTag).map place := by
  unfold emit
  rw [map_advance follows]
  rfl

/-- Where positions go along with the text, so do the tokens that are cut out of it. -/
theorem map_step (follows : Position.Follows place cursor.position) :
    (cursor.map place).step = cursor.step.map place := by
  have inside : (cursor.map place).stepInTag = cursor.stepInTag.map place := by
    have behind : Position.Follows place cursor.skipBlanks.position := follows.after _
    have skipped : (cursor.map place).skipBlanks = cursor.skipBlanks.map place := map_advance follows _
    unfold stepInTag
    rw [skipped]
    dsimp only
    have rest : (cursor.skipBlanks.map place).rest = cursor.skipBlanks.rest := rfl
    rw [rest]
    split
    · rfl
    · split
      · exact map_emit behind _ _ _
      · split
        · exact map_emit behind _ _ _
        · rw [map_advance behind]
          rfl
  have outside : (cursor.map place).stepInText = cursor.stepInText.map place := by
    unfold stepInText
    have rest : (cursor.map place).rest = cursor.rest := rfl
    rw [rest]
    split
    · rfl
    · dsimp only
      split
      · exact map_emit follows _ _ _
      · exact map_emit follows _ _ _
  have same : (cursor.map place).inTag = cursor.inTag := rfl
  rw [step, step, inside, outside, same]
  split <;> rfl

theorem lexes_map {last : Cursor} {tokens : List Lexeme} (follows : Position.Follows place cursor.position)
    (lexes : Lexes cursor tokens last) :
    Lexes (cursor.map place) (tokens.map (Lexeme.map place)) (last.map place) ∧
      Position.Follows place last.position := by
  induction lexes with
  | done => exact ⟨.done _, follows⟩
  | @step cursor next last lexeme rest stepped _ ih =>
    have onward : Position.Follows place next.position := by
      obtain ⟨blanks, text, takes⟩ := step_takes stepped
      rw [takes.position, takes.stop, takes.start]
      exact (follows.after blanks).after text
    obtain ⟨later, behind⟩ := ih onward
    refine ⟨.step ?_ later, behind⟩
    rw [map_step follows, stepped]
    rfl

theorem lexemes_map (follows : Position.Follows place cursor.position) :
    (cursor.map place).lexemes = cursor.lexemes.map place := by
  obtain ⟨last, lexes, ends⟩ := lexes_lexemes cursor
  obtain ⟨lexes', behind⟩ := lexes_map follows lexes
  have stepped := map_step behind
  have none : (last.map place).lexemes = ⟨[], cursor.lexemes.problem⟩ := by
    rw [Cursor.lexemes]
    cases problem : cursor.lexemes.problem with
    | none =>
      rw [problem] at ends
      rw [ends] at stepped
      split <;> simp_all [Step.map]
    | some problem' =>
      rw [problem] at ends
      obtain ⟨next, failed⟩ := ends
      rw [failed] at stepped
      split <;> simp_all [Step.map]
  rw [lexes'.lexemes, none, List.append_nil]
  rfl

end Cursor

namespace Source

/-- A source that is cut without a problem up to the end of a tag, with which it ends. -/
structure EndsWithTag (source : String) : Prop where
  whole : (lexemes source).problem = none
  last : ∃ tagEnd ∈ (lexemes source).tokens.getLast?, tagEnd.token = .tagEnd ∧
    tagEnd.span.stop.offset = utf8Len source.toList

variable {first second : String}

/-- Such a source is cut up to its very end, since no line end stands behind the tag. -/
theorem EndsWithTag.lexes (ends : EndsWithTag first) :
    ∃ last, (start first).Lexes (lexemes first).tokens last ∧ last.rest = [] ∧ last.inTag = false ∧
      (start first).rest = first.toList := by
  obtain ⟨last, lexes, finished⟩ := Cursor.lexes_lexemes (start first)
  have whole : (start first).lexemes.problem = none := ends.whole
  rw [whole] at finished
  obtain ⟨nothing, outside⟩ := Cursor.step_finished finished
  refine ⟨last, lexes, nothing, outside, ?_⟩
  obtain ⟨tagEnd, found, -, stops⟩ := ends.last
  have position := lexes.position_last
  rw [show (start first).lexemes.tokens.getLast? = some tagEnd from found] at position
  have position : tagEnd.span.stop = last.position := position
  obtain ⟨ending, cut, -⟩ := start_at first
  have length := congrArg utf8Len cut
  rw [String.utf8Len_append, ← stops, position, offset_finished lexes finished] at length
  have none := Text.length_le_utf8Len ending
  obtain rfl : ending = [] := List.length_eq_zero_iff.mp (by omega)
  exact ((List.append_nil _).symm.trans cut.symm)

/-- Where the first of two sources ends with the end of a tag, they are cut as they are alone. -/
theorem lexemes_append (ends : EndsWithTag first) (second : String) :
    lexemes (first ++ second) =
      ⟨(lexemes first).tokens ++ (lexemes second).tokens.map (Lexeme.map (Position.behind first.toList).beyond),
        (lexemes second).problem⟩ := by
  obtain ⟨last, lexes, nothing, outside, all⟩ := ends.lexes
  have closes : Cursor.EndsTag (lexemes first).tokens := by
    obtain ⟨tagEnd, found, token, -⟩ := ends.last
    exact ⟨tagEnd, found, token⟩
  obtain ⟨before, braces⟩ := lexes.rest_eq nothing closes
  have rest : Text.dropLineEnd (first ++ second).toList = first.toList ++ Text.dropLineEnd second.toList := by
    rw [String.toList_append, ← all, braces]
    have same : before ++ ['\x7d', '\x7d'] = before ++ ['\x7d'] ++ ['\x7d'] := by simp
    rw [same]
    exact Text.dropLineEnd_append (by decide) (by decide) second.toList
  have front : Cursor.Front 0 (Text.dropLineEnd second.toList) (start first) (start (first ++ second)) :=
    ⟨rfl, rfl, by rw [all]; exact rest⟩
  obtain ⟨last', lexes', frontLast⟩ := front.lexes_onto lexes nothing closes
  -- the cursor behind the first source is the start of the second one, but for its position
  have behind : last' = (start second).map (Position.behind first.toList).beyond := by
    obtain ⟨taken, split, position⟩ := lexes.taken
    rw [nothing, List.append_nil, all] at split
    have position : last.position = Position.behind first.toList := by
      rw [position, ← split]
      exact Position.after_eq_behind [] first.toList
    have place := frontLast.position
    have later := frontLast.rest
    have inTag := frontLast.inTag
    rw [position] at place
    rw [nothing, List.nil_append] at later
    rw [outside] at inTag
    obtain ⟨_, _, _⟩ := last'
    subst inTag later place
    rfl
  have follows : Position.Follows (Position.behind first.toList).beyond (start second).position :=
    Position.beyond_follows _ (Nat.le_refl 1)
  show (start (first ++ second)).lexemes = _
  rw [lexes'.lexemes, behind, Cursor.lexemes_map follows, Lexeme.map_moved_zero]
  rfl

end Source

end TextTemplate
