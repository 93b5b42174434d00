import TextTemplate.Proofs.Json.Strings

/-!
Documents as they are read. A text is read just when the grammar says that it stands for a document, and it
is that document which is read.
-/
namespace TextTemplate.Json

variable {levels : Nat} {front cs rest : List Char}

section Blanks

theorem skipBlanks_append (blank : Blank front) (cs : List Char) : skipBlanks (front ++ cs) = skipBlanks cs :=
  List.dropWhile_append_of_pos blank

theorem skipBlanks_of_head {c : Char} (visible : isBlank c = false) (cs : List Char) :
    skipBlanks (c :: cs) = c :: cs := by
  rw [skipBlanks, List.dropWhile_cons, visible]
  rfl

theorem blank_skipBlanks (cs : List Char) : ∃ front, Blank front ∧ cs = front ++ skipBlanks cs :=
  ⟨cs.takeWhile isBlank, fun c member => List.all_eq_true.mp List.all_takeWhile c member,
    List.takeWhile_append_dropWhile.symm⟩

theorem value_append (blank : Blank front) (fuel levels : Nat) (cs : List Char) :
    value (fuel + 1) levels (front ++ cs) = value (fuel + 1) levels cs := by
  rw [value, value, skipBlanks_append blank]

theorem items_append (blank : Blank front) (fuel levels : Nat) (cs : List Char) :
    items (fuel + 1) levels (front ++ cs) = items (fuel + 1) levels cs := by
  rw [items, items, skipBlanks_append blank]

theorem moreItems_append (blank : Blank front) (fuel levels : Nat) (cs : List Char) :
    moreItems (fuel + 1) levels (front ++ cs) = moreItems (fuel + 1) levels cs := by
  rw [moreItems, moreItems, skipBlanks_append blank]

theorem members_append (blank : Blank front) (fuel levels : Nat) (cs : List Char) :
    members (fuel + 1) levels (front ++ cs) = members (fuel + 1) levels cs := by
  rw [members, members, skipBlanks_append blank]

theorem moreMembers_append (blank : Blank front) (fuel levels : Nat) (cs : List Char) :
    moreMembers (fuel + 1) levels (front ++ cs) = moreMembers (fuel + 1) levels cs := by
  rw [moreMembers, moreMembers, skipBlanks_append blank]

theorem ends_of_isBlank {c : Char} (blank : isBlank c = true) : c.isDigit = false ∧ c ≠ '.' ∧ c ≠ 'e' ∧ c ≠ 'E' := by
  simp only [isBlank, Bool.or_eq_true, beq_iff_eq] at blank
  obtain ((rfl | rfl) | rfl) | rfl := blank
  all_goals decide

/-- Blanks and the marks between values end a number. -/
theorem endsNumber_of_mark {c : Char} (blank : Blank front) (mark : c ∈ [',', ']', '\x7d']) (rest : List Char) :
    EndsNumber (front ++ c :: rest) := by
  cases front with
  | nil =>
    rintro _ ⟨⟩
    simp only [List.mem_cons, List.not_mem_nil, or_false] at mark
    obtain rfl | rfl | rfl := mark
    all_goals decide
  | cons b front =>
    rintro _ ⟨⟩
    exact ends_of_isBlank (blank b List.mem_cons_self)

end Blanks

theorem Number.cons {negative : Bool} {json : Json} (number : Number negative cs json) :
    ∃ d ds, cs = d :: ds ∧ d.isDigit = true := by
  cases number with
  | parts whole =>
    cases whole with
    | zero => exact ⟨_, _, rfl, rfl⟩
    | digits nonzero each => exact ⟨_, _, rfl, each _ List.mem_cons_self⟩

/-- How a part is read, given what follows it: a value up to its end, and the inside of an array or an object up to
its bracket or brace, also behind a comma. Two steps for each character are enough, since whatever is nested has
brackets, a colon or a comma around it. -/
def Reads (levels : Nat) (cs : List Char) : Part → Prop
  | .value json => ∀ fuel rest, 2 * cs.length ≤ fuel → EndsNumber rest →
      value fuel levels (cs ++ rest) = .ok (json, rest)
  | .items found => ∀ fuel rest, 2 * cs.length + 2 ≤ fuel →
      items fuel levels (cs ++ ']' :: rest) = .ok (found, rest) ∧
        (found ≠ [] → moreItems fuel levels (',' :: (cs ++ ']' :: rest)) = .ok (found, rest))
  | .member found => ∀ fuel rest, 2 * cs.length ≤ fuel → EndsNumber rest →
      ∃ tail, cs = '"' :: tail ∧ member fuel levels (tail ++ rest) = .ok (found, rest)
  | .members found => ∀ fuel rest, 2 * cs.length + 2 ≤ fuel →
      members fuel levels (cs ++ '\x7d' :: rest) = .ok (found, rest) ∧
        (found ≠ [] → moreMembers fuel levels (',' :: (cs ++ '\x7d' :: rest)) = .ok (found, rest))

theorem word_eq_ok {json json' : Json} {letters : List Char} :
    word json letters cs = .ok (json', rest) ↔ json' = json ∧ cs = letters ++ rest := by
  induction letters generalizing cs with
  | nil => simp [word, eq_comm]
  | cons e es ih =>
    cases cs with
    | nil => simp [word, stop]
    | cons c cs =>
      rw [word, List.cons_append, List.cons.injEq]
      split
      · rename_i same
        simp [ih, same]
      · rename_i other
        simp [stop, other]

theorem isBlank_of_isDigit {d : Char} (digit : d.isDigit = true) : isBlank d = false := by
  rw [Bool.eq_false_iff]
  intro blank
  simp only [isBlank, Bool.or_eq_true, beq_iff_eq] at blank
  obtain ((rfl | rfl) | rfl) | rfl := blank
  all_goals cases digit

theorem value_digit {d : Char} (digit : d.isDigit = true) (fuel levels : Nat) (ds : List Char) :
    value (fuel + 1) levels (d :: ds) = number false (d :: ds) := by
  rw [value, skipBlanks_of_head (isBlank_of_isDigit digit)]
  split
  case h_9 same =>
    obtain ⟨rfl, rfl⟩ := List.cons.inj same
    rw [if_pos digit]
  all_goals
    rename_i same
    cases same
  all_goals cases digit

theorem value_word {word : String} {json : Json} (found : (word, json) ∈ words) (fuel levels : Nat) (rest : List Char) :
    value (fuel + 1) levels (word.toList ++ rest) = .ok (json, rest) := by
  simp only [words, List.mem_cons, Prod.mk.injEq, List.not_mem_nil, or_false] at found
  obtain ⟨rfl, rfl⟩ | ⟨rfl, rfl⟩ | ⟨rfl, rfl⟩ := found
  · have letters : "null".toList = 'n' :: "ull".toList := by decide
    rw [letters, List.cons_append, value, skipBlanks_of_head (by decide)]
    exact word_eq_ok.mpr ⟨rfl, rfl⟩
  · have letters : "true".toList = 't' :: "rue".toList := by decide
    rw [letters, List.cons_append, value, skipBlanks_of_head (by decide)]
    exact word_eq_ok.mpr ⟨rfl, rfl⟩
  · have letters : "false".toList = 'f' :: "alse".toList := by decide
    rw [letters, List.cons_append, value, skipBlanks_of_head (by decide)]
    exact word_eq_ok.mpr ⟨rfl, rfl⟩

/-- A value starts with something that is neither blank nor the end of an array. -/
theorem Denotes.head {json : Json} (denotes : Denotes levels cs (.value json)) :
    ∃ c tail, cs = c :: tail ∧ isBlank c = false ∧ c ≠ ']' := by
  cases denotes with
  | word found =>
    simp only [words, List.mem_cons, Prod.mk.injEq, List.not_mem_nil, or_false] at found
    obtain ⟨rfl, -⟩ | ⟨rfl, -⟩ | ⟨rfl, -⟩ := found
    · exact ⟨'n', "ull".toList, by decide⟩
    · exact ⟨'t', "rue".toList, by decide⟩
    · exact ⟨'f', "alse".toList, by decide⟩
  | number number =>
    obtain ⟨d, ds, rfl, digit⟩ := number.cons
    exact ⟨d, ds, rfl, isBlank_of_isDigit digit, by rintro rfl; cases digit⟩
  | _ => exact ⟨_, _, rfl, by decide⟩

section Steps

variable {fuel : Nat} {tail : List Char}

theorem moreItems_close (blank : Blank front) (fuel levels : Nat) (rest : List Char) :
    moreItems (fuel + 1) levels (front ++ ']' :: rest) = .ok ([], rest) := by
  rw [moreItems_append blank, moreItems, skipBlanks_of_head (by decide)]
  rfl

theorem moreMembers_close (blank : Blank front) (fuel levels : Nat) (rest : List Char) :
    moreMembers (fuel + 1) levels (front ++ '\x7d' :: rest) = .ok ([], rest) := by
  rw [moreMembers_append blank, moreMembers, skipBlanks_of_head (by decide)]
  rfl

/-- An item that can be read is the next one, both behind the bracket and behind a comma. -/
theorem items_cons {c : Char} {json : Json} {others : List Json} (blank : Blank front) (visible : isBlank c = false)
    (inside : c ≠ ']') (item : value fuel levels (c :: cs) = .ok (json, tail))
    (behind : moreItems fuel levels tail = .ok (others, rest)) :
    items (fuel + 1) levels (front ++ c :: cs) = .ok (json :: others, rest) ∧
      moreItems (fuel + 1) levels (',' :: (front ++ c :: cs)) = .ok (json :: others, rest) := by
  constructor
  · rw [items_append blank, items, skipBlanks_of_head visible]
    split
    · cases ‹c :: cs = []›
    · rename_i same
      exact absurd (List.cons.inj same).1 inside
    · exact bind_eq_ok.mpr ⟨_, item, bind_eq_ok.mpr ⟨_, behind, rfl⟩⟩
  · rw [moreItems, skipBlanks_of_head (by decide)]
    simp only
    rw [skipBlanks_append blank, skipBlanks_of_head visible]
    split
    · cases ‹c :: cs = []›
    · rename_i same
      exact absurd (List.cons.inj same).1 inside
    · exact bind_eq_ok.mpr ⟨_, item, bind_eq_ok.mpr ⟨_, behind, rfl⟩⟩

theorem members_cons {found : String × Json} {others : List (String × Json)} (blank : Blank front)
    (first : member fuel levels cs = .ok (found, tail)) (behind : moreMembers fuel levels tail = .ok (others, rest)) :
    members (fuel + 1) levels (front ++ '"' :: cs) = .ok (found :: others, rest) ∧
      moreMembers (fuel + 1) levels (',' :: (front ++ '"' :: cs)) = .ok (found :: others, rest) := by
  constructor
  · rw [members_append blank, members, skipBlanks_of_head (by decide)]
    exact bind_eq_ok.mpr ⟨_, first, bind_eq_ok.mpr ⟨_, behind, rfl⟩⟩
  · rw [moreMembers, skipBlanks_of_head (by decide)]
    simp only
    rw [skipBlanks_append blank, skipBlanks_of_head (by decide)]
    exact bind_eq_ok.mpr ⟨_, first, bind_eq_ok.mpr ⟨_, behind, rfl⟩⟩

end Steps

/-- What the grammar derives is read, along its derivation. -/
theorem Denotes.reads {part : Part} (denotes : Denotes levels cs part) : Reads levels cs part := by
  induction denotes with
  | word found =>
    intro fuel rest enough ends
    cases fuel with
    | zero =>
      obtain ⟨c, tail, same, -⟩ := (word found : Denotes levels _ _).head
      rw [same] at enough
      cases enough
    | succ fuel => exact value_word found fuel _ rest
  | number number =>
    intro fuel rest enough ends
    obtain ⟨d, ds, rfl, digit⟩ := number.cons
    cases fuel with
    | zero => cases enough
    | succ fuel =>
      rw [List.cons_append, value_digit digit]
      exact number_of_parts number ends
  | negative number =>
    intro fuel rest enough ends
    cases fuel with
    | zero => cases enough
    | succ fuel =>
      rw [List.cons_append, value, skipBlanks_of_head (by decide)]
      exact number_of_parts number ends
  | string body =>
    intro fuel rest enough ends
    cases fuel with
    | zero => cases enough
    | succ fuel =>
      rw [List.cons_append, value, skipBlanks_of_head (by decide)]
      refine bind_eq_ok.mpr ⟨_, string_eq_ok.mpr ⟨_, _, body, rfl, List.append_assoc ..⟩, rfl⟩
  | array inside ih =>
    intro fuel rest enough ends
    cases fuel with
    | zero => cases enough
    | succ fuel =>
      rw [List.cons_append, value, skipBlanks_of_head (by decide), List.append_assoc]
      refine bind_eq_ok.mpr ⟨_, (ih fuel rest ?_).1, rfl⟩
      simp only [List.length_cons, List.length_append] at enough
      omega
  | object inside ih =>
    intro fuel rest enough ends
    cases fuel with
    | zero => cases enough
    | succ fuel =>
      rw [List.cons_append, value, skipBlanks_of_head (by decide), List.append_assoc]
      refine bind_eq_ok.mpr ⟨_, (ih fuel rest ?_).1, rfl⟩
      simp only [List.length_cons, List.length_append] at enough
      omega
  | noItem blank =>
    intro fuel rest enough
    cases fuel with
    | zero => cases enough
    | succ fuel =>
      refine ⟨?_, fun some => absurd rfl some⟩
      rw [items_append blank, items, skipBlanks_of_head (by decide)]
      rfl
  | lastItem before after item ih =>
    intro fuel rest enough
    obtain ⟨c, cs, rfl, visible, inside⟩ := item.head
    simp only [List.length_cons, List.length_append] at enough
    obtain ⟨fuel, rfl⟩ : ∃ less, fuel = less + 2 := ⟨fuel - 2, by omega⟩
    -- the item may be a number, which must not go on in what follows it
    have ends := endsNumber_of_mark after (by decide : ']' ∈ _) rest
    have found := ih (fuel + 1) _ (by rw [List.length_cons]; omega) ends
    obtain ⟨first, second⟩ := items_cons before visible inside found (moreItems_close after fuel _ rest)
    rw [List.append_assoc, List.append_assoc]
    exact ⟨first, fun _ => second⟩
  | @moreItems levels front cs back next json items before after item some others ih ihOthers =>
    intro fuel rest enough
    obtain ⟨c, cs, rfl, visible, inside⟩ := item.head
    simp only [List.length_cons, List.length_append] at enough
    obtain ⟨fuel, rfl⟩ : ∃ less, fuel = less + 2 := ⟨fuel - 2, by omega⟩
    have ends := endsNumber_of_mark after (by decide : ',' ∈ _) (next ++ ']' :: rest)
    have found := ih (fuel + 1) _ (by rw [List.length_cons]; omega) ends
    -- the blanks behind the item are passed over together with the comma
    have behind := (moreItems_append after fuel _ _).trans ((ihOthers (fuel + 1) rest (by omega)).2 some)
    obtain ⟨first, second⟩ := items_cons before visible inside found behind
    rw [List.append_assoc, List.append_assoc, List.append_assoc]
    exact ⟨first, fun _ => second⟩
  | @member levels name text middle front cs json named between before content ih =>
    intro fuel rest enough ends
    simp only [List.length_cons, List.length_append] at enough
    obtain ⟨fuel, rfl⟩ : ∃ less, fuel = less + 2 := ⟨fuel - 2, by omega⟩
    have spelled : name ++ '"' :: (middle ++ ':' :: (front ++ cs)) ++ rest =
        name ++ '"' :: (middle ++ ':' :: (front ++ (cs ++ rest))) := by simp
    refine ⟨_, rfl, ?_⟩
    rw [spelled, Json.member]
    refine bind_eq_ok.mpr ⟨_, string_eq_ok.mpr ⟨_, _, named, rfl, rfl⟩, ?_⟩
    dsimp only
    rw [skipBlanks_append between, skipBlanks_of_head (by decide)]
    refine bind_eq_ok.mpr ⟨(json, rest), ?_, rfl⟩
    rw [value_append before]
    exact ih (fuel + 1) rest (by omega) ends
  | noMember blank =>
    intro fuel rest enough
    cases fuel with
    | zero => cases enough
    | succ fuel =>
      refine ⟨?_, fun some => absurd rfl some⟩
      rw [members_append blank, members, skipBlanks_of_head (by decide)]
      rfl
  | lastMember before after member ih =>
    intro fuel rest enough
    simp only [List.length_append] at enough
    obtain ⟨fuel, rfl⟩ : ∃ less, fuel = less + 2 := ⟨fuel - 2, by omega⟩
    have ends := endsNumber_of_mark after (by decide : '\x7d' ∈ _) rest
    obtain ⟨tail, rfl, found⟩ := ih (fuel + 1) _ (by omega) ends
    obtain ⟨first, second⟩ := members_cons before found (moreMembers_close after fuel _ rest)
    rw [List.append_assoc, List.append_assoc]
    exact ⟨first, fun _ => second⟩
  | @moreMembers levels front cs back next found members before after member some others ih ihOthers =>
    intro fuel rest enough
    simp only [List.length_cons, List.length_append] at enough
    obtain ⟨fuel, rfl⟩ : ∃ less, fuel = less + 2 := ⟨fuel - 2, by omega⟩
    have ends := endsNumber_of_mark after (by decide : ',' ∈ _) (next ++ '\x7d' :: rest)
    obtain ⟨tail, rfl, found⟩ := ih (fuel + 1) _ (by omega) ends
    have behind := (moreMembers_append after fuel _ _).trans ((ihOthers (fuel + 1) rest (by omega)).2 some)
    obtain ⟨first, second⟩ := members_cons before found behind
    rw [List.append_assoc, List.append_assoc, List.append_assoc]
    exact ⟨first, fun _ => second⟩

/-- What stands behind an item or a member: others behind a comma, or the end at once. -/
inductive Behind {α : Type} (levels : Nat) (close : Char) (part : List α → Part) (rest : List Char) :
    List Char → List α → Prop
  | last {back : List Char} (after : Blank back) : Behind levels close part rest (back ++ close :: rest) []
  | more {back text : List Char} {others : List α} (after : Blank back) (some : others ≠ [])
    (denotes : Denotes levels text (part others)) :
    Behind levels close part rest (back ++ ',' :: (text ++ close :: rest)) others

theorem Behind.items {tail text : List Char} {json : Json} {others : List Json}
    (behind : Behind levels ']' .items rest tail others) (blank : Blank front) (item : Denotes levels text (.value json)) :
    ∃ all, Denotes levels all (.items (json :: others)) ∧ front ++ (text ++ tail) = all ++ ']' :: rest := by
  cases behind with
  | last after => exact ⟨_, .lastItem blank after item, by simp⟩
  | more after some denotes => exact ⟨_, .moreItems blank after item some denotes, by simp⟩

theorem Behind.members {tail text : List Char} {found : String × Json} {others : List (String × Json)}
    (behind : Behind levels '\x7d' .members rest tail others) (blank : Blank front)
    (first : Denotes levels text (.member found)) :
    ∃ all, Denotes levels all (.members (found :: others)) ∧ front ++ (text ++ tail) = all ++ '\x7d' :: rest := by
  cases behind with
  | last after => exact ⟨_, .lastMember blank after first, by simp⟩
  | more after some denotes => exact ⟨_, .moreMembers blank after first some denotes, by simp⟩

/-- Whatever part is read, the grammar has it for the text that it was read from. -/
structure Sound (fuel : Nat) : Prop where
  value : ∀ {levels cs json rest}, value fuel levels cs = .ok (json, rest) →
    ∃ front text, Blank front ∧ Denotes levels text (.value json) ∧ cs = front ++ (text ++ rest)
  items : ∀ {levels cs found rest}, items fuel levels cs = .ok (found, rest) →
    ∃ text, Denotes levels text (.items found) ∧ cs = text ++ ']' :: rest
  moreItems : ∀ {levels cs found rest}, moreItems fuel levels cs = .ok (found, rest) →
    Behind levels ']' .items rest cs found
  member : ∀ {levels cs found rest}, member fuel levels cs = .ok (found, rest) →
    ∃ text, Denotes levels ('"' :: text) (.member found) ∧ cs = text ++ rest
  members : ∀ {levels cs found rest}, members fuel levels cs = .ok (found, rest) →
    ∃ text, Denotes levels text (.members found) ∧ cs = text ++ '\x7d' :: rest
  moreMembers : ∀ {levels cs found rest}, moreMembers fuel levels cs = .ok (found, rest) →
    Behind levels '\x7d' .members rest cs found

namespace Sound

variable {fuel : Nat}

theorem zero : Sound 0 where
  value read := by rw [Json.value] at read; cases read
  items read := by rw [Json.items] at read; cases read
  moreItems read := by rw [Json.moreItems] at read; cases read
  member read := by rw [Json.member] at read; cases read
  members read := by rw [Json.members] at read; cases read
  moreMembers read := by rw [Json.moreMembers] at read; cases read

theorem step_value (sound : Sound fuel) {json : Json} (read : Json.value (fuel + 1) levels cs = .ok (json, rest)) :
    ∃ front text, Blank front ∧ Denotes levels text (.value json) ∧ cs = front ++ (text ++ rest) := by
  obtain ⟨front, blank, same⟩ := blank_skipBlanks cs
  suffices inner : ∃ text, Denotes levels text (.value json) ∧ skipBlanks cs = text ++ rest by
    obtain ⟨text, denotes, rest'⟩ := inner
    exact ⟨front, text, blank, denotes, same.trans (congrArg _ rest')⟩
  have of_letters {first : Char} {letters tail : List Char} {word' : String} {found : Json}
      (member : (word', found) ∈ words) (spelled : word'.toList = first :: letters)
      (read : word found letters tail = .ok (json, rest)) :
      ∃ text, Denotes levels text (.value json) ∧ first :: tail = text ++ rest := by
    obtain ⟨rfl, rfl⟩ := word_eq_ok.mp read
    exact ⟨first :: letters, spelled ▸ .word member, rfl⟩
  rw [Json.value] at read
  split at read
  · cases read
  · rename_i same
    rw [same]
    exact of_letters (by simp [words] : ("null", Json.null) ∈ words) (by decide) read
  · rename_i same
    rw [same]
    exact of_letters (by simp [words] : ("true", Json.bool true) ∈ words) (by decide) read
  · rename_i same
    rw [same]
    exact of_letters (by simp [words] : ("false", Json.bool false) ∈ words) (by decide) read
  · rename_i same
    obtain ⟨⟨s, behind⟩, inner, done⟩ := bind_eq_ok.mp read
    obtain ⟨rfl, rfl⟩ := Prod.mk.inj (Except.ok.inj done)
    obtain ⟨inside, text, body, rfl, rfl⟩ := string_eq_ok.mp inner
    exact ⟨_, .string body, by rw [same]; simp⟩
  · rename_i same
    split at read
    · cases read
    · obtain ⟨⟨items, behind⟩, inside, done⟩ := bind_eq_ok.mp read
      obtain ⟨rfl, rfl⟩ := Prod.mk.inj (Except.ok.inj done)
      obtain ⟨text, denotes, rfl⟩ := sound.items inside
      exact ⟨_, .array denotes, by rw [same]; simp⟩
  · rename_i same
    split at read
    · cases read
    · obtain ⟨⟨members, behind⟩, inside, done⟩ := bind_eq_ok.mp read
      obtain ⟨rfl, rfl⟩ := Prod.mk.inj (Except.ok.inj done)
      obtain ⟨text, denotes, rfl⟩ := sound.members inside
      exact ⟨_, .object denotes, by rw [same]; simp⟩
  · rename_i same
    obtain ⟨digits, number, rfl⟩ := parts_of_number read
    exact ⟨_, .negative number, by rw [same]; rfl⟩
  · rename_i same
    split at read
    · obtain ⟨digits, number, spelled⟩ := parts_of_number read
      exact ⟨_, .number number, same.trans spelled⟩
    · cases read

/-- An item with those behind it. -/
theorem next_items (sound : Sound fuel) {found : List Json}
    (read : (Json.value fuel levels (skipBlanks cs) >>= fun item => Json.moreItems fuel levels item.2 >>= fun others =>
      .ok (item.1 :: others.1, others.2)) = .ok (found, rest)) :
    found ≠ [] ∧ ∃ text, Denotes levels text (.items found) ∧ cs = text ++ ']' :: rest := by
  obtain ⟨front, blank, spaced⟩ := blank_skipBlanks cs
  obtain ⟨⟨item, behind⟩, first, more⟩ := bind_eq_ok.mp read
  obtain ⟨⟨others, behind'⟩, next, done⟩ := bind_eq_ok.mp more
  obtain ⟨rfl, rfl⟩ := Prod.mk.inj (Except.ok.inj done)
  obtain ⟨front', text, blank', denotes, spelled⟩ := sound.value first
  have both : Blank (front ++ front') := fun c member => (List.mem_append.mp member).elim (blank c) (blank' c)
  obtain ⟨all, denotes', joined⟩ := (sound.moreItems next).items both denotes
  refine ⟨List.cons_ne_nil _ _, all, denotes', ?_⟩
  rw [spaced, spelled, ← joined, List.append_assoc]

theorem next_members (sound : Sound fuel) {inside : List Char} {found : List (String × Json)}
    (quoted : skipBlanks cs = '"' :: inside)
    (read : (Json.member fuel levels inside >>= fun first => Json.moreMembers fuel levels first.2 >>= fun others =>
      .ok (first.1 :: others.1, others.2)) = .ok (found, rest)) :
    found ≠ [] ∧ ∃ text, Denotes levels text (.members found) ∧ cs = text ++ '\x7d' :: rest := by
  obtain ⟨front, blank, spaced⟩ := blank_skipBlanks cs
  obtain ⟨⟨first, behind⟩, head, more⟩ := bind_eq_ok.mp read
  obtain ⟨⟨others, behind'⟩, next, done⟩ := bind_eq_ok.mp more
  obtain ⟨rfl, rfl⟩ := Prod.mk.inj (Except.ok.inj done)
  obtain ⟨text, denotes, rfl⟩ := sound.member head
  obtain ⟨all, denotes', joined⟩ := (sound.moreMembers next).members blank denotes
  refine ⟨List.cons_ne_nil _ _, all, denotes', ?_⟩
  rw [spaced, quoted, ← joined]
  rfl

/-- One step more, with each part put together from those that it calls for. -/
theorem step (sound : Sound fuel) : Sound (fuel + 1) where
  value := sound.step_value
  items {levels cs found rest} read := by
    obtain ⟨front, blank, spaced⟩ := blank_skipBlanks cs
    rw [Json.items] at read
    split at read
    · cases read
    · rename_i same
      obtain ⟨rfl, rfl⟩ := Prod.mk.inj (Except.ok.inj read)
      exact ⟨front, .noItem blank, spaced.trans (congrArg _ same)⟩
    · exact (sound.next_items read).2
  moreItems {levels cs found rest} read := by
    obtain ⟨back, after, spaced⟩ := blank_skipBlanks cs
    rw [Json.moreItems] at read
    split at read
    · cases read
    · rename_i same
      obtain ⟨rfl, rfl⟩ := Prod.mk.inj (Except.ok.inj read)
      rw [spaced, same]
      exact .last after
    · rename_i same
      split at read
      · cases read
      · cases read
      · obtain ⟨some, text, denotes, rfl⟩ := sound.next_items read
        rw [spaced, same]
        exact .more after some denotes
    · cases read
  member {levels cs found rest} read := by
    rw [Json.member] at read
    obtain ⟨⟨name, behind⟩, inner, more⟩ := bind_eq_ok.mp read
    obtain ⟨inside, text, body, rfl, rfl⟩ := string_eq_ok.mp inner
    obtain ⟨middle, between, spaced⟩ := blank_skipBlanks behind
    dsimp only at more
    split at more
    · cases more
    · rename_i same
      obtain ⟨⟨json, behind'⟩, content, done⟩ := bind_eq_ok.mp more
      obtain ⟨rfl, rfl⟩ := Prod.mk.inj (Except.ok.inj done)
      obtain ⟨front, text', before, denotes, rfl⟩ := sound.value content
      exact ⟨_, .member body between before denotes, by rw [spaced, same]; simp⟩
    · cases more
  members {levels cs found rest} read := by
    obtain ⟨front, blank, spaced⟩ := blank_skipBlanks cs
    rw [Json.members] at read
    split at read
    · cases read
    · rename_i same
      obtain ⟨rfl, rfl⟩ := Prod.mk.inj (Except.ok.inj read)
      exact ⟨front, .noMember blank, spaced.trans (congrArg _ same)⟩
    · rename_i same
      exact (sound.next_members same read).2
    · cases read
  moreMembers {levels cs found rest} read := by
    obtain ⟨back, after, spaced⟩ := blank_skipBlanks cs
    rw [Json.moreMembers] at read
    split at read
    · cases read
    · rename_i same
      obtain ⟨rfl, rfl⟩ := Prod.mk.inj (Except.ok.inj read)
      rw [spaced, same]
      exact .last after
    · rename_i same
      split at read
      · cases read
      · rename_i quoted
        obtain ⟨some, text, denotes, rfl⟩ := sound.next_members quoted read
        rw [spaced, same]
        exact .more after some denotes
      · cases read
      · cases read
    · cases read

end Sound

theorem sound (fuel : Nat) : Sound fuel := by
  induction fuel with
  | zero => exact .zero
  | succ fuel ih => exact ih.step

/-- A text is read just when it is that of a document, which is then what is read. -/
theorem read_eq_ok {text : String} {json : Json} : read text = .ok json ↔ IsText text json := by
  have document_eq : read text = .ok json ↔ document maxLevels text.toList = .ok json := by
    unfold read readWithin
    split <;> simp_all
  rw [document_eq]
  constructor
  · intro reads
    obtain ⟨⟨json', behind⟩, first, last⟩ := bind_eq_ok.mp reads
    dsimp only at last
    split at last
    · rename_i ended
      obtain rfl := Except.ok.inj last
      obtain ⟨front, cs, before, denotes, whole⟩ := (sound _).value first
      obtain ⟨back, after, spaced⟩ := blank_skipBlanks behind
      rw [List.isEmpty_iff.mp ended, List.append_nil] at spaced
      subst spaced
      exact .spaced (whole.trans (List.append_assoc ..).symm) before after denotes
    · cases last
  · rintro ⟨whole, before, after, denotes⟩
    rename_i front cs back
    have ends : EndsNumber back := fun c first => ends_of_isBlank (after c (List.mem_of_mem_head? first))
    have long : (front ++ cs ++ back).length = front.length + cs.length + back.length := by
      rw [List.length_append, List.length_append]
    have found := denotes.reads (3 * (front ++ cs ++ back).length + 3) back (by omega) ends
    rw [whole, document]
    refine bind_eq_ok.mpr ⟨(json, back), ?_, ?_⟩
    · rw [List.append_assoc, value_append before, ← List.append_assoc]
      exact found
    · have spent : skipBlanks back = [] := by
        rw [← List.append_nil back, skipBlanks_append after]
        rfl
      dsimp only
      rw [spent]
      rfl

end TextTemplate.Json
