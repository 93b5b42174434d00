import TextTemplate.Proofs.Decimal.Digits
import TextTemplate.Proofs.Syntax.Grammar
import TextTemplate.Proofs.Syntax.Recutting

/-!
Words, indices and dots inside of a tag. Each is cut out of the source where it ends, unless two indices
follow each other: these are cut as a number with a fraction, which names no member.
-/
namespace TextTemplate

namespace Lexer

/-- Whether a text is one word inside of a tag. -/
def isWord (s : String) : Bool :=
  match s.toList with
  | [] => false
  | c :: cs => isWordStart c && cs.all isWordChar

theorem isWord_cases {s : String} (word : isWord s = true) :
    ∃ c cs, s.toList = c :: cs ∧ isWordStart c = true ∧ ∀ d ∈ cs, isWordChar d = true := by
  unfold isWord at word
  split at word
  · cases word
  · rename_i c cs spelled
    obtain ⟨start, inside⟩ := Bool.and_eq_true_iff.mp word
    exact ⟨c, cs, spelled, start, List.all_eq_true.mp inside⟩

theorem isDigit_of_isWordStart {c : Char} (start : isWordStart c = true) : c.isDigit = false := by
  by_cases underscore : c = '_'
  · subst underscore
    rfl
  · have letter : c.isAlpha = true := by simpa [isWordStart, underscore] using start
    have above : 'A'.val ≤ c.val := by
      rcases Bool.or_eq_true_iff.mp (show (c.isUpper || c.isLower) = true from letter) with upper | lower
      · exact (of_decide_eq_true upper : c.val ≥ 'A'.val ∧ c.val ≤ 'Z'.val).1
      · exact UInt32.le_trans (by decide : 'A'.val ≤ 'a'.val) (of_decide_eq_true (Bool.and_eq_true_iff.mp lower).1)
    have beyond : ¬c.val ≤ '9'.val :=
      UInt32.not_le.mpr (UInt32.lt_of_lt_of_le (by decide : '9'.val < 'A'.val) above)
    exact Bool.and_eq_false_iff.mpr (.inr (decide_eq_false beyond))

theorem isWordChar_of_start {c : Char} (start : isWordStart c = true) : isWordChar c = true := by
  simp only [isWordStart, isWordChar, Char.isAlphanum, Bool.or_eq_true] at start ⊢
  exact start.imp_left Or.inl

theorem isWordChar_of_digit {c : Char} (digit : c.isDigit = true) : isWordChar c = true := by
  simp [isWordChar, Char.isAlphanum, digit]

theorem isDigit_of_not_wordChar {c : Char} (outside : isWordChar c = false) : c.isDigit = false := by
  by_contra digit
  rw [isWordChar_of_digit (Bool.not_eq_false _ ▸ digit)] at outside
  cases outside

/-- A character of a word is neither a blank nor a brace. -/
theorem solid_of_wordChar {c : Char} (inside : isWordChar c = true) : Text.isTagSpace c = false ∧ c ≠ '\x7d' := by
  constructor
  · by_contra blank
    simp only [Text.isTagSpace, Bool.not_eq_false, Bool.or_eq_true, beq_iff_eq, or_assoc] at blank
    rcases blank with rfl | rfl | rfl | rfl | rfl
    all_goals cases inside
  · rintro rfl
    cases inside

/-- No operator starts like a word. -/
theorem operator_word {c : Char} (start : isWordStart c = true) :
    (∀ d, pairOperator? c d = none) ∧ singleOperator? c = none := by
  constructor
  · intro d
    unfold pairOperator?
    split
    all_goals first | rfl | exact absurd start (by decide)
  · unfold singleOperator?
    split
    all_goals first | rfl | exact absurd start (by decide)

/-- No operator starts like a number. -/
theorem operator_digit {c : Char} (start : c.isDigit = true) :
    (∀ d, pairOperator? c d = none) ∧ singleOperator? c = none := by
  constructor
  · intro d
    unfold pairOperator?
    split
    all_goals first | rfl | exact absurd start (by decide)
  · unfold singleOperator?
    split
    all_goals first | rfl | exact absurd start (by decide)

theorem tagPiece_word {c : Char} {cs behind : List Char} (start : isWordStart c = true)
    (inside : ∀ d ∈ cs, isWordChar d = true) (boundary : ∀ d ∈ behind.head?, isWordChar d = false) :
    tagPiece c (cs ++ behind) = ⟨.ok (.word (String.ofList (c :: cs))), cs.length + 1⟩ := by
  obtain ⟨pair, single⟩ := operator_word start
  have noPair : (cs ++ behind).head?.bind (pairOperator? c) = none := by
    cases (cs ++ behind).head? with
    | none => rfl
    | some d => exact pair d
  have noQuote : ¬(c = '\x27' ∨ c = '"') := by
    rintro (rfl | rfl)
    · exact absurd start (by decide)
    · exact absurd start (by decide)
  have noDigit : ¬c.isDigit = true := by simp [isDigit_of_isWordStart start]
  unfold tagPiece
  rw [noPair]
  dsimp only
  rw [single]
  dsimp only
  rw [if_neg noQuote, if_neg noDigit, if_pos start, takeWhile_append_of_boundary inside boundary]

theorem tagPiece_dot (cs : List Char) : tagPiece '.' cs = ⟨.ok .dot, 1⟩ := by
  have noPair : cs.head?.bind (pairOperator? '.') = none := by
    cases cs.head? with
    | none => rfl
    | some d => rfl
  unfold tagPiece
  rw [noPair]
  rfl

theorem tagPiece_digit {c : Char} (digit : c.isDigit = true) (cs : List Char) :
    tagPiece c cs = ⟨numberToken (c :: cs), numberLength (c :: cs)⟩ := by
  obtain ⟨pair, single⟩ := operator_digit digit
  have noPair : cs.head?.bind (pairOperator? c) = none := by
    cases cs.head? with
    | none => rfl
    | some d => exact pair d
  have noQuote : ¬(c = '\x27' ∨ c = '"') := by
    rintro (rfl | rfl)
    · exact absurd digit (by decide)
    · exact absurd digit (by decide)
  unfold tagPiece
  rw [noPair]
  dsimp only
  rw [single]
  dsimp only
  rw [if_neg noQuote, if_pos digit]

/-- Digits are an integer unless a point and another digit follow. -/
theorem number_append {digits behind : List Char} (inside : ∀ d ∈ digits, d.isDigit = true)
    (boundary : ∀ d ∈ behind.head?, d.isDigit = false) (whole : fractionLength behind = 0)
    (small : (natOfDigits digits : Int) ≤ integerMax) :
    numberToken (digits ++ behind) = .ok (.int (natOfDigits digits)) ∧
      numberLength (digits ++ behind) = digits.length := by
  have span := spanDigits_append inside boundary
  constructor
  · unfold numberToken
    rw [span]
    dsimp only
    rw [if_pos whole, if_pos small]
  · rw [numberLength, span]
    dsimp only
    rw [whole, Nat.add_zero]

/-- Digits in front of a point and another digit are no name of a member. -/
theorem number_fraction {digits behind : List Char} {d : Char} {token : Token} (inside : ∀ d ∈ digits, d.isDigit = true)
    (digit : d.isDigit = true) (found : numberToken (digits ++ '.' :: d :: behind) = .ok token) :
    Expr.segmentName token = none := by
  have span : spanDigits (digits ++ '.' :: d :: behind) = (digits, '.' :: d :: behind) :=
    spanDigits_append inside (by simp)
  have fraction : ¬fractionLength ('.' :: d :: behind) = 0 := by
    simp [fractionLength, spanDigits, digit]
  unfold numberToken at found
  rw [span] at found
  dsimp only at found
  rw [if_neg fraction] at found
  split at found
  · obtain rfl := Except.ok.inj found
    rfl
  · cases found

theorem natOfDigits_toDigits (i : Nat) : natOfDigits (Nat.toDigits 10 i) = i :=
  Nat.ofDigitChars_toDigits (by decide) (by decide)

end Lexer

theorem Text.isTagSpace_blank : ∀ c ∈ [' '], isTagSpace c = true := by
  intro c found
  rw [List.mem_singleton.mp found]
  rfl

namespace Cursor

/-- Whether a cursor inside of a tag cuts tokens up to some rest, which is still inside of the tag. -/
def Cuts (cursor : Cursor) (tokens : List Token) (rest : List Char) : Prop :=
  ∃ lexemes last, Lexes cursor lexemes last ∧ tokensOf lexemes = tokens ∧ last.inTag = true ∧ last.rest = rest

/-- Whether neither a word nor an integer is what a cursor cuts next. -/
def Breaks (cursor : Cursor) : Prop :=
  (∃ problem next, cursor.step = .failed problem next) ∨
    ∃ lexeme next, cursor.step = .lexeme lexeme next ∧ Expr.segmentName lexeme.token = none

variable {cursor : Cursor} {blanks cs behind : List Char} {c : Char} {token : Token}

theorem skipBlanks_append (front : cursor.rest = blanks ++ c :: cs) (blank : ∀ d ∈ blanks, Text.isTagSpace d = true)
    (solid : Text.isTagSpace c = false) : cursor.skipBlanks.rest = c :: cs := by
  have taken : cursor.rest.takeWhile Text.isTagSpace = blanks := by
    rw [front, takeWhile_append_of_boundary blank (by simpa using solid)]
  rw [skipBlanks, taken, advance, front, List.drop_left]

/-- Behind blanks, the piece is taken that starts there, unless it ends the tag. -/
theorem step_front (inTag : cursor.inTag = true) (front : cursor.rest = blanks ++ c :: cs)
    (blank : ∀ d ∈ blanks, Text.isTagSpace d = true) (solid : Text.isTagSpace c = false) (goesOn : c ≠ '\x7d') :
    cursor.step =
      match (Lexer.tagPiece c cs).found with
      | .ok token => cursor.skipBlanks.emit token (Lexer.tagPiece c cs).length true
      | .error problem => .failed problem (cursor.skipBlanks.advance (Lexer.tagPiece c cs).length) := by
  have inner : Lexer.startsPair '\x7d' (c :: cs) = false := by
    cases cs <;> simp [Lexer.startsPair, goesOn]
  rw [step, if_pos inTag, stepInTag]
  dsimp only
  rw [skipBlanks_append front blank solid]
  exact if_neg (by simp [inner])

theorem Cuts.refl (inTag : cursor.inTag = true) : cursor.Cuts [] cursor.rest :=
  ⟨[], cursor, .done cursor, rfl, inTag, rfl⟩

theorem Cuts.trans {one two : List Token} {middle rest : List Char} (first : cursor.Cuts one middle)
    (second : ∀ next : Cursor, next.inTag = true → next.rest = middle → next.Cuts two rest) :
    cursor.Cuts (one ++ two) rest := by
  obtain ⟨before, next, lexes, rfl, inTag, front⟩ := first
  obtain ⟨behind, last, lexes', rfl, inTag', front'⟩ := second next inTag front
  exact ⟨before ++ behind, last, lexes_append.mpr ⟨next, lexes, lexes'⟩, tokensOf_append .., inTag', front'⟩

/-- Behind blanks, a token is cut that does not end the tag. -/
theorem cuts_piece {n : Nat} (inTag : cursor.inTag = true) (front : cursor.rest = blanks ++ c :: cs)
    (blank : ∀ d ∈ blanks, Text.isTagSpace d = true) (solid : Text.isTagSpace c = false) (goesOn : c ≠ '\x7d')
    (piece : Lexer.tagPiece c cs = ⟨.ok token, n + 1⟩) : cursor.Cuts [token] (cs.drop n) := by
  have stepped := step_front inTag front blank solid goesOn
  rw [piece] at stepped
  refine ⟨[_], _, .step stepped (.done _), rfl, rfl, ?_⟩
  rw [advance, skipBlanks_append front blank solid]
  rfl

end Cursor

namespace Lexer

variable {c : Char} {cs body : List Char}

theorem pairIndex?_of_not_mem (free : c ∉ cs) : pairIndex? c cs = none := by
  induction cs with
  | nil => rfl
  | cons d cs ih =>
    obtain ⟨other, free⟩ := not_or.mp (mt List.mem_cons.mpr free)
    rw [pairIndex?_cons_of_ne (Ne.symm other), ih free]
    rfl

/-- No pair stands in the front of a text that has none. -/
theorem pairIndex?_take_of_none (apart : pairIndex? c cs = none) (n : Nat) : pairIndex? c (cs.take n) = none := by
  cases found : pairIndex? c (cs.take n) with
  | none => rfl
  | some m =>
    have longer := pairIndex?_append_of_some found (cs.drop n)
    rw [List.take_append_drop, apart] at longer
    cases longer

/-- Two closing braces end a tag in which no two opening ones stand. -/
theorem opensTag_of_none (apart : pairIndex? '{' body = none) (behind : List Char) :
    opensTag (body ++ '}' :: '}' :: behind) = true := by
  have stops : ∃ stop ≤ body.length, pairIndex? '}' (body ++ '}' :: '}' :: behind) = some stop := by
    rcases pairIndex?_append_pair '}' body behind with ⟨same, some⟩ | ⟨-, found | ⟨front, rfl, found⟩⟩
    · obtain ⟨stop, found⟩ := Option.isSome_iff_exists.mp some
      have inside := pairIndex?_length found
      exact ⟨stop, by omega, same.trans found⟩
    · exact ⟨body.length, Nat.le_refl _, found⟩
    · exact ⟨front.length, by simp, found⟩
  obtain ⟨stop, inside, found⟩ := stops
  rw [opensTag, found]
  dsimp only
  rw [List.take_append_of_le_length inside, pairIndex?_take_of_none apart]
  rfl

end Lexer

/-- A segment of a dotted path: a word, or an index that fits an integer. -/
inductive Segment where
  | word (name : String) (isWord : Lexer.isWord name = true)
  | index (i : Nat) (small : (i : Int) ≤ integerMax)

namespace Segment

def text : Segment → String
  | word name _ => name
  | index i _ => toString i

def token : Segment → Token
  | word name _ => .word name
  | index i _ => .int i

def isIndex : Segment → Bool
  | word .. => false
  | index .. => true

/-- Whether no index follows another one. -/
def apart : List Segment → Bool
  | first :: second :: rest => !(first.isIndex && second.isIndex) && apart (second :: rest)
  | _ => true

/-- The characters of segments with their dots. -/
def chars (segments : List Segment) : List Char :=
  segments.flatMap fun segment => '.' :: segment.text.toList

def tokens (segments : List Segment) : List Token :=
  segments.flatMap fun segment => [.dot, segment.token]

variable {segment : Segment} {segments : List Segment} {cursor : Cursor} {blanks behind : List Char}

theorem segmentName_token (segment : Segment) : Expr.segmentName segment.token = some segment.text := by
  cases segment <;> rfl

theorem index_toList (i : Nat) : (toString i).toList = Nat.toDigits 10 i :=
  Nat.toList_repr

theorem digits_of_isIndex (index : segment.isIndex = true) : ∀ d ∈ segment.text.toList, d.isDigit = true := by
  cases segment with
  | word => cases index
  | index i small =>
    intro d found
    rw [text, index_toList] at found
    exact Nat.isDigit_of_mem_toDigits (by decide) (by decide) found

theorem text_wordChars (segment : Segment) : ∀ d ∈ segment.text.toList, Lexer.isWordChar d = true := by
  cases segment with
  | word name isWord =>
    obtain ⟨c, cs, spelled, start, inside⟩ := Lexer.isWord_cases isWord
    intro d found
    rw [text, spelled] at found
    rcases List.mem_cons.mp found with rfl | found
    · exact Lexer.isWordChar_of_start start
    · exact inside d found
  | index i small =>
    intro d found
    exact Lexer.isWordChar_of_digit (digits_of_isIndex rfl d found)

theorem text_front (segment : Segment) : ∃ c cs, segment.text.toList = c :: cs := by
  refine List.exists_cons_of_ne_nil ?_
  cases segment with
  | word name isWord =>
    obtain ⟨c, cs, spelled, -, -⟩ := Lexer.isWord_cases isWord
    rw [text, spelled]
    exact List.cons_ne_nil c cs
  | index i small =>
    rw [text, index_toList]
    exact Nat.toDigits_ne_nil

theorem tagPiece_segment {c : Char} {cs : List Char} (spelled : segment.text.toList = c :: cs)
    (boundary : ∀ d ∈ behind.head?, Lexer.isWordChar d = false)
    (whole : segment.isIndex = true → Lexer.fractionLength behind = 0) :
    Lexer.tagPiece c (cs ++ behind) = ⟨.ok segment.token, cs.length + 1⟩ := by
  cases segment with
  | word name isWord =>
    obtain ⟨_, _, same, start, inside⟩ := Lexer.isWord_cases isWord
    obtain ⟨rfl, rfl⟩ := List.cons.inj (spelled.symm.trans same)
    rw [Lexer.tagPiece_word start inside boundary, ← same, String.ofList_toList]
    rfl
  | index i small =>
    have digits := @digits_of_isIndex (.index i small) rfl
    have value : natOfDigits (c :: cs) = i := by
      rw [← spelled, text, index_toList, Lexer.natOfDigits_toDigits]
    rw [spelled] at digits
    have outside : ∀ d ∈ behind.head?, d.isDigit = false := by
      intro d found
      exact Lexer.isDigit_of_not_wordChar (boundary d found)
    obtain ⟨token, length⟩ := Lexer.number_append digits outside (whole rfl) (by rw [value]; exact small)
    rw [Lexer.tagPiece_digit (digits c List.mem_cons_self), ← List.cons_append, token, length, value]
    rfl

/-- A segment is cut where its word or its index ends. -/
theorem cuts (segment : Segment) (inTag : cursor.inTag = true)
    (front : cursor.rest = blanks ++ (segment.text.toList ++ behind)) (blank : ∀ d ∈ blanks, Text.isTagSpace d = true)
    (boundary : ∀ d ∈ behind.head?, Lexer.isWordChar d = false)
    (whole : segment.isIndex = true → Lexer.fractionLength behind = 0) : cursor.Cuts [segment.token] behind := by
  obtain ⟨c, cs, spelled⟩ := segment.text_front
  have inside := segment.text_wordChars
  rw [spelled] at front inside
  obtain ⟨solid, goesOn⟩ := Lexer.solid_of_wordChar (inside c List.mem_cons_self)
  have front : cursor.rest = blanks ++ c :: (cs ++ behind) := front
  have cut := Cursor.cuts_piece inTag front blank solid goesOn (tagPiece_segment spelled boundary whole)
  rwa [List.drop_left] at cut

theorem cuts_dot (inTag : cursor.inTag = true) (front : cursor.rest = '.' :: behind) : cursor.Cuts [.dot] behind := by
  have front : cursor.rest = [] ++ '.' :: behind := front
  have cut := Cursor.cuts_piece inTag front (by simp) rfl (by decide) (Lexer.tagPiece_dot behind)
  exact cut

section Places

variable {rest : List Segment} {more : List Char}

/-- Segments in front of a blank end what stands before them. -/
theorem chars_boundary (segments : List Segment) (more : List Char) :
    ∀ d ∈ (chars segments ++ ' ' :: more).head?, Lexer.isWordChar d = false := by
  cases segments with
  | nil =>
    intro d found
    obtain rfl := Option.some.inj found
    rfl
  | cons segment segments =>
    intro d found
    obtain rfl := Option.some.inj found
    rfl

/-- No fraction stands in front of a word. -/
theorem fractionLength_chars (words : ∀ next ∈ segments.head?, next.isIndex = false) (more : List Char) :
    Lexer.fractionLength (chars segments ++ ' ' :: more) = 0 := by
  cases segments with
  | nil => rfl
  | cons next segments =>
    cases next with
    | index => cases words _ rfl
    | word name isWord =>
      obtain ⟨c, cs, spelled, start, -⟩ := Lexer.isWord_cases isWord
      have outside := Lexer.isDigit_of_isWordStart start
      show Lexer.fractionLength ('.' :: (name.toList ++ chars segments ++ ' ' :: more)) = 0
      rw [spelled, Lexer.fractionLength]
      simp [spanDigits, outside]

theorem apart_cons :
    apart (segment :: rest) = true ↔
      (segment.isIndex = true → ∀ next ∈ rest.head?, next.isIndex = false) ∧ apart rest = true := by
  cases rest with
  | nil => simp [apart]
  | cons next rest =>
    rw [apart, Bool.and_eq_true]
    cases segment.isIndex <;> simp

/-- The first of some segments is cut unless another index follows an index. -/
theorem cuts_first (words : segment.isIndex = true → ∀ next ∈ rest.head?, next.isIndex = false)
    (inTag : cursor.inTag = true) (front : cursor.rest = chars (segment :: rest) ++ ' ' :: more) :
    cursor.Cuts [.dot, segment.token] (chars rest ++ ' ' :: more) := by
  have front : cursor.rest = '.' :: (segment.text.toList ++ (chars rest ++ ' ' :: more)) := by
    rw [front, ← List.append_assoc]
    rfl
  refine (cuts_dot inTag front).trans fun next inside here => ?_
  have here : next.rest = [] ++ (segment.text.toList ++ (chars rest ++ ' ' :: more)) := here
  exact segment.cuts inside here (by simp) (chars_boundary rest more) fun index =>
    fractionLength_chars (words index) more

/-- Segments that are apart are cut one by one. -/
theorem cuts_all (split : apart segments = true) (inTag : cursor.inTag = true)
    (front : cursor.rest = chars segments ++ ' ' :: more) : cursor.Cuts (tokens segments) (' ' :: more) := by
  induction segments generalizing cursor with
  | nil =>
    have front : cursor.rest = ' ' :: more := front
    rw [← front]
    exact .refl inTag
  | cons segment rest ih =>
    obtain ⟨words, split⟩ := apart_cons.mp split
    exact (cuts_first words inTag front).trans fun next inside here => ih split inside here

/-- Of two indices that follow each other, the first one is cut as a number with a fraction. -/
theorem breaks_indices {i j : Segment} (index : i.isIndex = true) (index' : j.isIndex = true)
    (inTag : cursor.inTag = true) (front : cursor.rest = i.text.toList ++ '.' :: (j.text.toList ++ behind)) :
    cursor.Breaks := by
  obtain ⟨c, cs, spelled⟩ := i.text_front
  obtain ⟨d, ds, spelled'⟩ := j.text_front
  have digits := digits_of_isIndex index
  have digit : d.isDigit = true := digits_of_isIndex index' d (by rw [spelled']; exact List.mem_cons_self)
  obtain ⟨solid, goesOn⟩ := Lexer.solid_of_wordChar (i.text_wordChars c (by rw [spelled]; exact List.mem_cons_self))
  rw [spelled] at front digits
  rw [spelled'] at front
  have front : cursor.rest = [] ++ c :: (cs ++ '.' :: d :: (ds ++ behind)) := front
  have stepped := Cursor.step_front inTag front (by simp) solid goesOn
  have piece : (Lexer.tagPiece c (cs ++ '.' :: d :: (ds ++ behind))).found =
      Lexer.numberToken (c :: cs ++ '.' :: d :: (ds ++ behind)) := by
    rw [Lexer.tagPiece_digit (digits c List.mem_cons_self)]
    rfl
  cases found : (Lexer.tagPiece c (cs ++ '.' :: d :: (ds ++ behind))).found with
  | error problem =>
    rw [found] at stepped
    exact .inl ⟨problem, _, stepped⟩
  | ok token =>
    rw [found] at stepped
    exact .inr ⟨_, _, stepped, Lexer.number_fraction digits digit (piece.symm.trans found)⟩

/-- Segments that are not apart are cut one by one up to a dot that no segment follows. -/
theorem cuts_upTo (joined : apart segments = false) (more : List Char) :
    ∃ (before : List Segment) (behind : List Char),
      (∀ cursor : Cursor, cursor.inTag = true → cursor.rest = chars segments ++ ' ' :: more →
        cursor.Cuts (tokens before ++ [.dot]) behind) ∧
      ∀ next : Cursor, next.inTag = true → next.rest = behind → next.Breaks := by
  induction segments with
  | nil => cases joined
  | cons segment rest ih =>
    by_cases words : segment.isIndex = true → ∀ next ∈ rest.head?, next.isIndex = false
    · have joined : apart rest = false := by
        by_contra split
        exact Bool.eq_false_iff.mp joined (apart_cons.mpr ⟨words, by simpa using split⟩)
      obtain ⟨before, behind, cuts, breaks⟩ := ih joined
      refine ⟨segment :: before, behind, fun cursor inTag front => ?_, breaks⟩
      exact (cuts_first words inTag front).trans cuts
    · push Not at words
      obtain ⟨index, next, found, index'⟩ := words
      obtain ⟨later, rfl⟩ := List.head?_eq_some_iff.mp found
      refine ⟨[], segment.text.toList ++ '.' :: (next.text.toList ++ (chars later ++ ' ' :: more)), ?_, ?_⟩
      · intro cursor inTag front
        exact cuts_dot inTag (by simpa [chars] using front)
      · intro cursor inTag front
        exact breaks_indices index (by simpa using index') inTag front

end Places

end Segment

end TextTemplate
