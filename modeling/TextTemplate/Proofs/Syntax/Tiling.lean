import TextTemplate.Proofs.Syntax.Cutting

/-!
The tokens of a source cover it from its start to its end. Between two of them there is nothing, or
blanks inside of a tag, and each one is written with the characters that stand at its span.
-/
namespace TextTemplate

open String (utf8Len)

namespace Text

/-- The text that is left when one line end is dropped behind it. -/
theorem dropLineEnd_cases (cs : List Char) :
    cs = dropLineEnd cs ++ ['\r', '\n'] ∨
    cs = dropLineEnd cs ++ ['\n'] ∧ (dropLineEnd cs).getLast? ≠ some '\r' ∨
    cs = dropLineEnd cs ∧ cs.getLast? ≠ some '\n' := by
  unfold dropLineEnd dropReturn
  split
  · rename_i fed
    have front : cs = cs.dropLast ++ ['\n'] := (List.dropLast_append_getLast? _ fed).symm
    split
    · rename_i returned
      have front' : cs.dropLast = cs.dropLast.dropLast ++ ['\r'] :=
        (List.dropLast_append_getLast? _ returned).symm
      refine .inl ?_
      conv => lhs; rw [front, front']
      rw [List.append_assoc]
      rfl
    · exact .inr (.inl ⟨front, by assumption⟩)
  · exact .inr (.inr ⟨rfl, by assumption⟩)

theorem slice_before (before behind : List Char) : slice 0 (utf8Len before) (before ++ behind) = before := by
  simpa using slice_between [] before behind

end Text

/-- A position between two characters of a source, with the lines and columns counted up to there. -/
structure Position.In (source : List Char) (p : Position) : Prop where
  boundary : utf8Len (Text.slice 0 p.offset source) = p.offset
  line : p.line = 1 + (Text.slice 0 p.offset source).count '\n'
  column : p.column = (Text.lastLine (Text.slice 0 p.offset source)).length

theorem Position.behind_in (before behind : List Char) : (Position.behind before).In (before ++ behind) := by
  have front : Text.slice 0 (Position.behind before).offset (before ++ behind) = before :=
    Text.slice_before before behind
  refine ⟨?_, ?_, ?_⟩
  · rw [front]
    rfl
  · rw [front]
    rfl
  · rw [front]
    rfl

namespace Cursor

variable {source ending before blanks text : List Char} {cursor next last : Cursor} {lexeme : Lexeme}
  {tokens : List Lexeme}

/-- A cursor in a source behind the characters `before`; it does not see the `ending`. -/
structure At (source ending before : List Char) (cursor : Cursor) : Prop where
  rest : source = before ++ (cursor.rest ++ ending)
  position : cursor.position = .behind before

theorem Lexes.at_last (lexes : Lexes cursor tokens last) (here : cursor.At source ending before) :
    ∃ taken, last.At source ending (before ++ taken) := by
  obtain ⟨taken, rest, position⟩ := lexes.taken
  refine ⟨taken, ?_, ?_⟩
  · rw [here.rest, rest]
    simp only [List.append_assoc]
  · rw [position, here.position, Position.after_eq_behind]

/-- The token of a step stands behind the blanks in front of it. -/
theorem Takes.span_eq (takes : Takes cursor lexeme next blanks text) (here : cursor.At source ending before) :
    lexeme.span = ⟨.behind (before ++ blanks), .behind (before ++ blanks ++ text)⟩ := by
  have start : lexeme.span.start = .behind (before ++ blanks) := by
    rw [takes.start, here.position, Position.after_eq_behind]
  have stop : lexeme.span.stop = .behind (before ++ blanks ++ text) := by
    rw [takes.stop, start, Position.after_eq_behind]
  rw [← start, ← stop]

theorem Takes.source_eq (takes : Takes cursor lexeme next blanks text) (here : cursor.At source ending before) :
    source = before ++ blanks ++ text ++ (next.rest ++ ending) := by
  rw [here.rest, takes.rest]
  simp only [List.append_assoc]

theorem Takes.at_next (takes : Takes cursor lexeme next blanks text) (here : cursor.At source ending before) :
    next.At source ending (before ++ blanks ++ text) :=
  ⟨takes.source_eq here, by rw [takes.position, takes.span_eq here]⟩

theorem Takes.start_lt_stop (takes : Takes cursor lexeme next blanks text) :
    lexeme.span.start.offset < lexeme.span.stop.offset := by
  have positive := List.length_pos_iff.mpr takes.nonempty
  have bytes := Text.length_le_utf8Len text
  rw [takes.stop, Position.after_offset]
  omega

theorem Takes.offset_le_start (takes : Takes cursor lexeme next blanks text) :
    cursor.position.offset ≤ lexeme.span.start.offset := by
  rw [takes.start, Position.after_offset]
  omega

/-- A step takes at least one byte. -/
theorem Takes.lt_next (takes : Takes cursor lexeme next blanks text) :
    cursor.position.offset < next.position.offset := by
  rw [takes.position]
  exact Nat.lt_of_le_of_lt takes.offset_le_start takes.start_lt_stop

/-- A token starts and ends between characters. -/
theorem Takes.placed (takes : Takes cursor lexeme next blanks text) (here : cursor.At source ending before) :
    lexeme.span.start.In source ∧ lexeme.span.stop.In source := by
  rw [takes.span_eq here, takes.source_eq here]
  refine ⟨?_, Position.behind_in _ _⟩
  rw [List.append_assoc _ text]
  exact Position.behind_in _ _

theorem Takes.spells_slice (takes : Takes cursor lexeme next blanks text) (here : cursor.At source ending before) :
    lexeme.token.Spells (Text.slice lexeme.span.start.offset lexeme.span.stop.offset source) := by
  have slice := Text.slice_between (before ++ blanks) text (next.rest ++ ending)
  rw [takes.span_eq here, takes.source_eq here]
  simp only [Position.behind]
  rw [slice]
  exact takes.spells

theorem Lexes.mem (lexes : Lexes cursor tokens last) (found : lexeme ∈ tokens) :
    ∃ front middle next, Lexes cursor front middle ∧ middle.step = .lexeme lexeme next := by
  obtain ⟨front, back, rfl⟩ := List.append_of_mem found
  obtain ⟨middle, first, rest⟩ := lexes_append.mp lexes
  cases rest with
  | step stepped _ => exact ⟨front, middle, _, first, stepped⟩

/-- The first token of text starts where the text does. -/
theorem Lexes.start_first {rest : List Lexeme} (lexes : Lexes cursor (lexeme :: rest) last)
    (outside : cursor.inTag = false) : lexeme.span.start = cursor.position := by
  cases lexes with
  | step stepped _ =>
    obtain ⟨blanks, text, takes⟩ := step_takes stepped
    rw [takes.start, takes.outside outside]
    rfl

theorem Lexes.ordered (lexes : Lexes cursor tokens last) :
    (∀ lexeme ∈ tokens, cursor.position.offset ≤ lexeme.span.start.offset) ∧
      tokens.Pairwise fun a b => a.span.stop.offset ≤ b.span.start.offset := by
  induction lexes with
  | done => exact ⟨by simp, .nil⟩
  | @step cursor next last lexeme rest stepped _ ih =>
    obtain ⟨blanks, text, takes⟩ := step_takes stepped
    obtain ⟨later, ordered⟩ := ih
    rw [takes.position] at later
    refine ⟨?_, List.pairwise_cons.mpr ⟨later, ordered⟩⟩
    intro other found
    have before := takes.offset_le_start
    have progress := takes.start_lt_stop
    rcases List.mem_cons.mp found with rfl | found
    · exact before
    · have behind := later other found
      omega

theorem Lexes.position_last (lexes : Lexes cursor tokens last) :
    (tokens.getLast?.map (·.span.stop)).getD cursor.position = last.position := by
  induction lexes with
  | done => rfl
  | @step cursor next last lexeme rest stepped _ ih =>
    obtain ⟨blanks, text, takes⟩ := step_takes stepped
    rw [← ih, takes.position]
    cases rest with
    | nil => rfl
    | cons other rest => simp [List.getLast?_cons]

/-- What stands between two tokens that follow one another. -/
theorem Lexes.between {front back : List Lexeme} {a b : Lexeme}
    (lexes : Lexes cursor (front ++ a :: b :: back) last) (here : cursor.At source ending before) :
    (∀ c ∈ Text.slice a.span.stop.offset b.span.start.offset source, Text.isTagSpace c = true) ∧
      (a.span.stop.offset < b.span.start.offset → a.token.leavesInTag = true ∧ b.token.isInner = true) := by
  obtain ⟨middle, first, rest⟩ := lexes_append.mp lexes
  obtain ⟨taken, here⟩ := first.at_last here
  cases rest with
  | @step _ next _ _ _ stepped rest =>
  cases rest with
  | step stepped' _ =>
  obtain ⟨_, _, takes⟩ := step_takes stepped
  obtain ⟨blanks, text, takes'⟩ := step_takes stepped'
  have there := takes.at_next here
  refine ⟨?_, fun apart => ?_⟩
  · have slice : Text.slice a.span.stop.offset b.span.start.offset source = blanks := by
      rw [takes.span_eq here, takes'.span_eq there, takes'.source_eq there, List.append_assoc _ text]
      exact Text.slice_between ..
    rw [slice]
    exact takes'.blank
  · have inside : next.inTag = true := by
      by_contra outside
      rw [takes'.start, takes'.outside (by simpa using outside), takes.position] at apart
      exact Nat.lt_irrefl _ apart
    exact ⟨takes.inTag.symm.trans inside, takes'.inner.trans inside⟩

end Cursor

namespace Source

/-- The tokens of a source cover it but for blanks inside of tags. -/
structure Tiled (source : String) : Prop where
  ending : source.toList = Text.dropLineEnd source.toList ++ ['\r', '\n'] ∨
    source.toList = Text.dropLineEnd source.toList ++ ['\n'] ∧
      (Text.dropLineEnd source.toList).getLast? ≠ some '\r' ∨
    source.toList = Text.dropLineEnd source.toList ∧ source.toList.getLast? ≠ some '\n'
  progress : ∀ {tokens cursor lexeme next}, (start source).Lexes tokens cursor →
    cursor.step = .lexeme lexeme next → cursor.position.offset < next.position.offset
  finished : ∀ {tokens cursor}, (start source).Lexes tokens cursor → cursor.step = .finished →
    cursor.position.offset = utf8Len (Text.dropLineEnd source.toList)
  nonempty : ∀ lexeme ∈ (lexemes source).tokens, lexeme.span.start.offset < lexeme.span.stop.offset
  ordered : (lexemes source).tokens.Pairwise fun a b => a.span.stop.offset ≤ b.span.start.offset
  first : ∀ lexeme ∈ (lexemes source).tokens.head?, lexeme.span.start.offset = 0
  last : (lexemes source).problem = none →
    ((lexemes source).tokens.getLast?.map (·.span.stop.offset)).getD 0 = utf8Len (Text.dropLineEnd source.toList)
  /-- What stands between two tokens. -/
  blank : ∀ {front a b back}, (lexemes source).tokens = front ++ a :: b :: back →
    (∀ c ∈ Text.slice a.span.stop.offset b.span.start.offset source.toList, Text.isTagSpace c = true) ∧
      (a.span.stop.offset < b.span.start.offset → a.token.leavesInTag = true ∧ b.token.isInner = true)
  placed : ∀ lexeme ∈ (lexemes source).tokens,
    lexeme.span.start.In source.toList ∧ lexeme.span.stop.In source.toList
  spelled : ∀ lexeme ∈ (lexemes source).tokens,
    lexeme.token.Spells (Text.slice lexeme.span.start.offset lexeme.span.stop.offset source.toList)
  /-- Lines, columns and offsets are numbers of 32 bits. -/
  fits : ∀ lexeme ∈ (lexemes source).tokens, ∀ p ∈ [lexeme.span.start, lexeme.span.stop],
    p.line < 2 ^ 32 ∧ p.column < 2 ^ 32 ∧ p.offset < 2 ^ 32

theorem start_at (source : String) :
    ∃ ending, source.toList = Text.dropLineEnd source.toList ++ ending ∧
      (start source).At source.toList ending [] := by
  rcases Text.dropLineEnd_cases source.toList with cut | ⟨cut, -⟩ | ⟨cut, -⟩
  · exact ⟨_, cut, cut, rfl⟩
  · exact ⟨_, cut, cut, rfl⟩
  · have all := cut.trans (List.append_nil _).symm
    exact ⟨[], all, all, rfl⟩

/-- In front of a place in a source, fewer lines end than the source has bytes. -/
theorem count_lt_utf8Len {source before behind : List Char} (cut : Text.dropLineEnd source = before ++ behind)
    (nonempty : source ≠ []) : before.count '\n' < utf8Len source := by
  have lines : before.count '\n' ≤ before.length := List.count_le_length
  have bytes := Text.length_le_utf8Len source
  have dropped : ∀ ending : List Char, ending ≠ [] → source = Text.dropLineEnd source ++ ending →
      before.count '\n' < utf8Len source := by
    intro ending some_ending all
    have length := congrArg List.length all
    have positive := List.length_pos_iff.mpr some_ending
    rw [cut] at length
    simp only [List.length_append] at length
    omega
  rcases Text.dropLineEnd_cases source with all | ⟨all, -⟩ | ⟨all, unended⟩
  · exact dropped _ (by simp) all
  · exact dropped _ (by simp) all
  · -- no line ends behind the last character
    have front : before.count '\n' ≤ source.count '\n' := by
      rw [all, cut, List.count_append]
      omega
    have fewer : source.count '\n' < source.length := by
      refine lt_of_le_of_ne List.count_le_length fun every => ?_
      have ended := List.count_eq_length.mp every (source.getLast nonempty) (List.getLast_mem nonempty)
      rw [List.getLast?_eq_some_getLast nonempty, ← ended] at unended
      exact unended rfl
    omega

theorem fits_behind {source before behind ending : List Char} (all : source = Text.dropLineEnd source ++ ending)
    (here : source = before ++ (behind ++ ending)) (nonempty : source ≠ []) (short : utf8Len source < 2 ^ 32) :
    let p := Position.behind before
    p.line < 2 ^ 32 ∧ p.column < 2 ^ 32 ∧ p.offset < 2 ^ 32 := by
  have cut : Text.dropLineEnd source = before ++ behind := by
    have same : Text.dropLineEnd source ++ ending = before ++ behind ++ ending := by
      rw [← all, List.append_assoc]
      exact here
    exact List.append_cancel_right same
  have lines := count_lt_utf8Len cut nonempty
  have within : utf8Len before ≤ utf8Len source := by
    rw [here, String.utf8Len_append]
    omega
  have column : (Text.lastLine before).length ≤ before.length := by
    have shorter := (List.takeWhile_sublist (p := (· ≠ '\n')) (l := before.reverse)).length_le
    rw [List.length_reverse] at shorter
    rw [Text.lastLine, List.length_reverse]
    exact shorter
  have bytes := Text.length_le_utf8Len before
  refine ⟨?_, ?_, ?_⟩
  · simp only [Position.behind]
    omega
  · simp only [Position.behind]
    omega
  · simp only [Position.behind]
    omega

/-- Where no step is left, all but the line end has been taken. -/
theorem offset_finished {source : String} {tokens : List Lexeme} {cursor : Cursor}
    (lexes : (start source).Lexes tokens cursor) (stepped : cursor.step = .finished) :
    cursor.position.offset = utf8Len (Text.dropLineEnd source.toList) := by
  obtain ⟨ending, cut, here⟩ := start_at source
  obtain ⟨taken, here⟩ := lexes.at_last here
  have all := here.rest
  rw [(Cursor.step_finished stepped).1, List.nil_append, List.nil_append] at all
  rw [here.position, List.append_cancel_right (cut.symm.trans all)]
  rfl

/-- The offsets and the places of a token of a short source are numbers of 32 bits. -/
theorem fits_taken {source ending before blanks text : List Char} {cursor next : Cursor} {lexeme : Lexeme}
    (cut : source = Text.dropLineEnd source ++ ending) (short : utf8Len source < 2 ^ 32)
    (here : cursor.At source ending before) (takes : cursor.Takes lexeme next blanks text) :
    ∀ p ∈ [lexeme.span.start, lexeme.span.stop], p.line < 2 ^ 32 ∧ p.column < 2 ^ 32 ∧ p.offset < 2 ^ 32 := by
  have there := takes.at_next here
  have nonempty : source ≠ [] := by
    rw [takes.source_eq here]
    simp [takes.nonempty]
  have start : source = before ++ blanks ++ (text ++ next.rest ++ ending) := by
    rw [takes.source_eq here]
    simp only [List.append_assoc]
  rw [takes.span_eq here]
  rintro p (_ | ⟨_, _ | ⟨_, ⟨⟩⟩⟩)
  · exact fits_behind cut start nonempty short
  · exact fits_behind cut there.rest nonempty short

/-- The tokens of a source tile it. Every step before the first problem takes at least one byte, until
nothing is left but one line end; the tokens that were found stand in order at places between the
characters of the source, with nothing but blanks inside of tags between them. -/
theorem lexemes_tiled (source : String) (short : source.utf8ByteSize < 2 ^ 32) : Tiled source := by
  obtain ⟨ending, cut, here⟩ := start_at source
  obtain ⟨last, lexes, ends⟩ : ∃ last, (start source).Lexes (lexemes source).tokens last ∧ _ :=
    Cursor.lexes_lexemes (start source)
  have taken : ∀ lexeme ∈ (lexemes source).tokens, ∃ (before blanks text : List Char) (cursor next : Cursor),
      cursor.At source.toList ending before ∧ cursor.Takes lexeme next blanks text := by
    intro lexeme found
    obtain ⟨front, cursor, next, first, stepped⟩ := lexes.mem found
    obtain ⟨taken, here⟩ := first.at_last here
    obtain ⟨blanks, text, takes⟩ := Cursor.step_takes stepped
    exact ⟨_, blanks, text, cursor, next, here, takes⟩
  have bytes : utf8Len source.toList < 2 ^ 32 := by
    rw [← String.utf8ByteSize_ofList, String.ofList_toList]
    exact short
  constructor
  case ending => exact Text.dropLineEnd_cases _
  case progress =>
    intro tokens cursor lexeme next _ stepped
    obtain ⟨blanks, text, takes⟩ := Cursor.step_takes stepped
    exact takes.lt_next
  case finished => exact offset_finished
  case nonempty =>
    intro lexeme found
    obtain ⟨_, _, _, _, _, _, takes⟩ := taken lexeme found
    exact takes.start_lt_stop
  case ordered => exact lexes.ordered.2
  case first =>
    intro lexeme first
    obtain ⟨rest, same⟩ : ∃ rest, (lexemes source).tokens = lexeme :: rest := List.head?_eq_some_iff.mp first
    rw [same] at lexes
    rw [lexes.start_first rfl]
    rfl
  case last =>
    intro unbroken
    have stops : last.step = .finished := by
      have problem : (start source).lexemes.problem = none := unbroken
      rw [problem] at ends
      exact ends
    have position := congrArg Position.offset lexes.position_last
    rw [offset_finished lexes stops] at position
    rw [← position]
    cases (lexemes source).tokens.getLast? with
    | none => rfl
    | some lexeme => rfl
  case blank =>
    intro front a b back same
    rw [same] at lexes
    exact lexes.between here
  case placed =>
    intro lexeme found
    obtain ⟨_, _, _, _, _, here, takes⟩ := taken lexeme found
    exact takes.placed here
  case spelled =>
    intro lexeme found
    obtain ⟨_, _, _, _, _, here, takes⟩ := taken lexeme found
    exact takes.spells_slice here
  case fits =>
    intro lexeme found
    obtain ⟨_, _, _, _, _, here, takes⟩ := taken lexeme found
    exact fits_taken cut bytes here takes

/-- Text of several lines and bytes, a string with braces, a tag over two lines, and a line end behind. -/
theorem lexemes_tiled_lines :
    let source := "é\n\x7b \x7b\x7b ä \x7b\x7b a.b |\n cut: '\x7d\x7d' >= 1.5 \x7d\x7d ü\r\n"
    source.utf8ByteSize < 2 ^ 32 ∧ (lexemes source).problem = none ∧ (lexemes source).tokens.length = 14 ∧
      Tiled source := by
  intro source
  have small : source.utf8ByteSize < 2 ^ 32 := by decide
  obtain ⟨cut, length⟩ : (lexemes source).problem = none ∧ (lexemes source).tokens.length = 14 := by
    decide +kernel
  exact ⟨small, cut, length, lexemes_tiled _ small⟩

end Source

end TextTemplate
