import TextTemplate.Proofs.Json.Grammar

/-!
Strings and numbers of JSON documents. What is read of them is what the grammar says, and each number is
read to its end.
-/
namespace TextTemplate.Json

variable {cs rest : List Char}

section Strings

variable {c : Char} {n : Nat} {text : List Char}

theorem hexEscape_eq_ok : hexEscape cs = .ok (n, rest) ↔ ∃ digits, HexNumber digits n ∧ cs = digits ++ rest := by
  constructor
  · intro read
    unfold hexEscape at read
    split at read
    · split at read
      · rename_i number
        obtain ⟨rfl, rfl⟩ := Prod.mk.inj (Except.ok.inj read)
        exact ⟨_, ⟨rfl, number⟩, rfl⟩
      · cases read
    · cases read
  · rintro ⟨digits, ⟨four, number⟩, rfl⟩
    match digits, four with
    | [a, b, c, d], _ =>
      show hexEscape (a :: b :: c :: d :: rest) = _
      rw [hexEscape, number]

theorem lowSurrogate_eq_ok : lowSurrogate cs = .ok (n, rest) ↔
    ∃ digits, HexNumber digits n ∧ isLowSurrogate n = true ∧ cs = '\\' :: 'u' :: (digits ++ rest) := by
  constructor
  · intro read
    unfold lowSurrogate at read
    split at read
    · obtain ⟨⟨n', rest'⟩, escape, last⟩ := bind_eq_ok.mp read
      obtain ⟨digits, number, rfl⟩ := hexEscape_eq_ok.mp escape
      dsimp only at last
      split at last
      · rename_i low
        obtain ⟨rfl, rfl⟩ := Prod.mk.inj (Except.ok.inj last)
        exact ⟨digits, number, low, rfl⟩
      · cases last
    all_goals cases read
  · rintro ⟨digits, number, low, rfl⟩
    rw [lowSurrogate]
    refine bind_eq_ok.mpr ⟨_, hexEscape_eq_ok.mpr ⟨digits, number, rfl⟩, ?_⟩
    dsimp only
    rw [if_pos low]

theorem unicodeEscape_eq_ok : unicodeEscape cs = .ok (c, rest) ↔ ∃ w, Escape ('u' :: w) c ∧ cs = w ++ rest := by
  constructor
  · intro read
    obtain ⟨⟨first, behind⟩, escape, last⟩ := bind_eq_ok.mp read
    obtain ⟨digits, number, rfl⟩ := hexEscape_eq_ok.mp escape
    dsimp only at last
    split at last
    · cases last
    · rename_i low
      replace low := Bool.eq_false_iff.mpr low
      split at last
      · rename_i high
        obtain ⟨⟨second, behind'⟩, half, done⟩ := bind_eq_ok.mp last
        obtain ⟨digits', number', low', rfl⟩ := lowSurrogate_eq_ok.mp half
        obtain ⟨rfl, rfl⟩ := Prod.mk.inj (Except.ok.inj done)
        exact ⟨_, .pair number low high number' low', by simp⟩
      · rename_i high
        obtain ⟨rfl, rfl⟩ := Prod.mk.inj (Except.ok.inj last)
        exact ⟨digits, .single number low (Bool.eq_false_iff.mpr high), rfl⟩
  · rintro ⟨w, escaped, rfl⟩
    generalize whole : 'u' :: w = all at escaped
    cases escaped with
    | short found =>
      obtain ⟨rfl, rfl⟩ := List.cons.inj whole
      simp [shortEscapes] at found
    | single number low high =>
      obtain ⟨-, rfl⟩ := List.cons.inj whole
      refine bind_eq_ok.mpr ⟨_, hexEscape_eq_ok.mpr ⟨_, number, rfl⟩, ?_⟩
      simp [low, high]
    | pair number low high number' low' =>
      obtain ⟨-, rfl⟩ := List.cons.inj whole
      refine bind_eq_ok.mpr ⟨_, hexEscape_eq_ok.mpr ⟨_, number, List.append_assoc ..⟩, ?_⟩
      simp only [low, high, Bool.false_eq_true, if_false, if_true]
      exact bind_eq_ok.mpr ⟨_, lowSurrogate_eq_ok.mpr ⟨_, number', low', rfl⟩, rfl⟩

/-- What is read behind a backslash is an escape. -/
theorem escape_eq_ok : escape cs = .ok (c, rest) ↔ ∃ w, Escape w c ∧ cs = w ++ rest := by
  constructor
  · intro read
    unfold escape at read
    split at read
    case h_10 =>
      obtain ⟨w, escaped, rfl⟩ := unicodeEscape_eq_ok.mp read
      exact ⟨_, escaped, rfl⟩
    case h_1 | h_11 => cases read
    all_goals
      obtain ⟨rfl, rfl⟩ := Prod.mk.inj (Except.ok.inj read)
      exact ⟨_, .short (by decide), rfl⟩
  · rintro ⟨w, escaped, rfl⟩
    cases escaped with
    | short found =>
      simp only [shortEscapes, List.mem_cons, Prod.mk.injEq, List.not_mem_nil, or_false] at found
      rcases found with ⟨rfl, rfl⟩ | ⟨rfl, rfl⟩ | ⟨rfl, rfl⟩ | ⟨rfl, rfl⟩ | ⟨rfl, rfl⟩ | ⟨rfl, rfl⟩ | ⟨rfl, rfl⟩ | ⟨rfl, rfl⟩
      all_goals rfl
    | single number low high => exact unicodeEscape_eq_ok.mpr ⟨_, .single number low high, rfl⟩
    | pair number low high number' low' => exact unicodeEscape_eq_ok.mpr ⟨_, .pair number low high number' low', rfl⟩

theorem stringRest_escape (fuel : Nat) (cs : List Char) : stringRest (fuel + 1) ('\\' :: cs) = (do
    let (c, rest) ← escape cs
    let (text, rest) ← stringRest fuel rest
    .ok (c :: text, rest)) :=
  rfl

theorem stringRest_other (quote : c ≠ '"') (backslash : c ≠ '\\') (fuel : Nat) (cs : List Char) :
    stringRest (fuel + 1) (c :: cs) = if c.toNat < 0x20 then stop .controlCharacter cs else (do
      let (text, rest) ← stringRest fuel cs
      .ok (c :: text, rest)) := by
  rw [stringRest]
  · exact quote
  · exact backslash

/-- A string is read up to the quote behind it. -/
theorem stringRest_of_body (body : StringBody cs text) {fuel : Nat} (enough : cs.length < fuel) :
    stringRest fuel (cs ++ '"' :: rest) = .ok (text, rest) := by
  induction body generalizing fuel with
  | nil =>
    obtain ⟨fuel, rfl⟩ := Nat.exists_eq_add_of_lt enough
    rfl
  | plain quote backslash visible body ih =>
    cases fuel with
    | zero => exact absurd enough (Nat.not_lt_zero _)
    | succ fuel =>
      rw [List.cons_append, stringRest_other quote backslash, if_neg visible, ih (Nat.lt_of_succ_lt_succ enough)]
      rfl
  | escape escaped body ih =>
    cases fuel with
    | zero => exact absurd enough (Nat.not_lt_zero _)
    | succ fuel =>
      rw [List.cons_append, List.append_assoc, stringRest_escape]
      refine bind_eq_ok.mpr ⟨_, escape_eq_ok.mpr ⟨_, escaped, rfl⟩, bind_eq_ok.mpr ⟨_, ih ?_, rfl⟩⟩
      rw [List.length_cons, List.length_append] at enough
      omega

theorem body_of_stringRest {fuel : Nat} (read : stringRest fuel cs = .ok (text, rest)) :
    ∃ inside, StringBody inside text ∧ cs = inside ++ '"' :: rest := by
  induction fuel generalizing cs text with
  | zero => cases read
  | succ fuel ih =>
    cases cs with
    | nil => cases read
    | cons c cs =>
      by_cases quote : c = '"'
      · subst quote
        obtain ⟨rfl, rfl⟩ := Prod.mk.inj (Except.ok.inj read)
        exact ⟨[], .nil, rfl⟩
      by_cases backslash : c = '\\'
      · subst backslash
        rw [stringRest_escape] at read
        obtain ⟨⟨c, behind⟩, escapes, more⟩ := bind_eq_ok.mp read
        obtain ⟨⟨text', behind'⟩, inner, done⟩ := bind_eq_ok.mp more
        obtain ⟨rfl, rfl⟩ := Prod.mk.inj (Except.ok.inj done)
        obtain ⟨w, escaped, rfl⟩ := escape_eq_ok.mp escapes
        obtain ⟨inside, body, rfl⟩ := ih inner
        exact ⟨_, .escape escaped body, by simp⟩
      · rw [stringRest_other quote backslash] at read
        split at read
        · cases read
        · rename_i visible
          obtain ⟨⟨text', behind⟩, inner, done⟩ := bind_eq_ok.mp read
          obtain ⟨rfl, rfl⟩ := Prod.mk.inj (Except.ok.inj done)
          obtain ⟨inside, body, rfl⟩ := ih inner
          exact ⟨_, .plain quote backslash visible body, rfl⟩

theorem string_eq_ok {s : String} : string cs = .ok (s, rest) ↔
    ∃ inside text, StringBody inside text ∧ s = String.ofList text ∧ cs = inside ++ '"' :: rest := by
  constructor
  · intro read
    obtain ⟨⟨text, behind⟩, inner, done⟩ := bind_eq_ok.mp read
    obtain ⟨rfl, rfl⟩ := Prod.mk.inj (Except.ok.inj done)
    obtain ⟨inside, body, rfl⟩ := body_of_stringRest inner
    exact ⟨inside, text, body, rfl, rfl⟩
  · rintro ⟨inside, text, body, rfl, rfl⟩
    refine bind_eq_ok.mpr ⟨_, stringRest_of_body body ?_, rfl⟩
    rw [List.length_append]
    omega

end Strings

section Numbers

/-- What stands behind a number is no part of it. -/
def EndsNumber (rest : List Char) : Prop :=
  ∀ c ∈ rest.head?, c.isDigit = false ∧ c ≠ '.' ∧ c ≠ 'e' ∧ c ≠ 'E'

variable {whole fraction exponent digits : List Char} {power : Option Int}

theorem wholeDigits_of_whole (part : Whole whole) (ends : ∀ d ∈ rest.head?, d.isDigit = false) :
    wholeDigits (whole ++ rest) = .ok (whole, rest) := by
  cases part with
  | zero =>
    show wholeDigits ('0' :: rest) = _
    rw [wholeDigits, if_neg]
    cases rest with
    | nil => decide
    | cons d rest => simpa using ends d rfl
  | digits nonzero each =>
    rw [List.cons_append, wholeDigits, if_pos (each _ List.mem_cons_self), ← List.cons_append,
      spanDigits_append each ends]
    exact nonzero

theorem whole_of_wholeDigits (read : wholeDigits cs = .ok (whole, rest)) : Whole whole ∧ cs = whole ++ rest := by
  unfold wholeDigits at read
  split at read
  · cases read
  · split at read
    · cases read
    · obtain ⟨rfl, rfl⟩ := Prod.mk.inj (Except.ok.inj read)
      exact ⟨.zero, rfl⟩
  · rename_i c cs nonzero
    split at read
    · rename_i digit
      obtain ⟨each, same⟩ := of_spanDigits (Except.ok.inj read)
      cases whole with
      | nil =>
        have first := congrArg Prod.fst (Except.ok.inj read)
        simp [spanDigits, digit] at first
      | cons first others =>
        obtain ⟨rfl, rfl⟩ := List.cons.inj same
        exact ⟨.digits nonzero each, rfl⟩
    · cases read

theorem fractionDigits_of_fraction (part : Fraction fraction digits)
    (ends : ∀ d ∈ rest.head?, d.isDigit = false ∧ d ≠ '.') :
    fractionDigits (fraction ++ rest) = .ok (digits, rest) := by
  cases part with
  | none =>
    rw [List.nil_append, fractionDigits]
    rintro cs rfl
    exact (ends '.' rfl).2 rfl
  | point some each =>
    have span : spanDigits (digits ++ rest) = (digits, rest) := spanDigits_append each fun d first => (ends d first).1
    rw [List.cons_append, fractionDigits, span]
    cases digits with
    | nil => exact absurd rfl some
    | cons => rfl

theorem fraction_of_fractionDigits (read : fractionDigits cs = .ok (digits, rest)) :
    ∃ fraction, Fraction fraction digits ∧ cs = fraction ++ rest := by
  unfold fractionDigits at read
  split at read
  · rename_i cs
    split at read
    · cases read
    · cases read
    · rename_i some
      rw [Except.ok.inj read] at some
      obtain ⟨each, rfl⟩ := of_spanDigits (Except.ok.inj read)
      exact ⟨_, .point (fun none => some rest (none ▸ rfl)) each, rfl⟩
  · obtain ⟨rfl, rfl⟩ := Prod.mk.inj (Except.ok.inj read)
    exact ⟨[], .none, rfl⟩

/-- The sign of an exponent, and what follows it. -/
theorem exponent_cons {e : Char} (letter : e = 'e' ∨ e = 'E') {sign : List Char} (signed : sign ∈ [[], ['+'], ['-']])
    (behind : sign = [] → ∀ c ∈ cs.head?, c ≠ '-' ∧ c ≠ '+') : Json.exponent (e :: (sign ++ cs)) =
      match spanDigits cs with
      | ([], []) => stop .endInValue []
      | ([], _ :: rest) => stop .badNumber rest
      | (digits, rest) =>
        .ok (some (if sign = ['-'] then -(natOfDigits digits : Int) else natOfDigits digits), rest) := by
  have marked : ¬(e ≠ 'e' ∧ e ≠ 'E') := fun ⟨small, large⟩ => letter.elim small large
  simp only [List.mem_cons, List.not_mem_nil, or_false] at signed
  unfold Json.exponent
  dsimp only
  rw [if_neg marked]
  obtain rfl | rfl | rfl := signed
  · cases cs with
    | nil => rfl
    | cons c cs =>
      obtain ⟨minus, plus⟩ := behind rfl c rfl
      simp only [List.nil_append, List.cons.injEq, minus, false_and, imp_self, implies_true, plus, Bool.false_eq_true,
        if_false, List.ne_cons_self]
      all_goals rfl
  · rfl
  · rfl

theorem exponent_of_part (part : Exponent exponent power) (ends : EndsNumber rest) :
    Json.exponent (exponent ++ rest) = .ok (power, rest) := by
  cases part with
  | none =>
    cases rest with
    | nil => rfl
    | cons c rest =>
      obtain ⟨-, -, small, large⟩ := ends c rfl
      unfold Json.exponent
      exact if_pos ⟨small, large⟩
  | power letter signed some each =>
    rename_i e sign digits
    obtain ⟨d, ds, rfl⟩ := List.exists_cons_of_ne_nil some
    have digit : d.isDigit = true := each d List.mem_cons_self
    have span : spanDigits (d :: ds ++ rest) = (d :: ds, rest) := spanDigits_append each fun c first => (ends c first).1
    rw [List.cons_append, List.append_assoc, exponent_cons letter signed, span]
    rintro - c ⟨⟩
    constructor
    · rintro rfl
      cases digit
    · rintro rfl
      cases digit

theorem part_of_exponent (read : Json.exponent cs = .ok (power, rest)) :
    ∃ exponent, Exponent exponent power ∧ cs = exponent ++ rest := by
  cases cs with
  | nil =>
    obtain ⟨rfl, rfl⟩ := Prod.mk.inj (Except.ok.inj read)
    exact ⟨[], .none, rfl⟩
  | cons e cs =>
    by_cases letter : e = 'e' ∨ e = 'E'
    · have signs : ∃ sign behind, sign ∈ [[], ['+'], ['-']] ∧ cs = sign ++ behind ∧
          (sign = [] → ∀ c ∈ behind.head?, c ≠ '-' ∧ c ≠ '+') := by
        by_cases minus : cs.head? = some '-'
        · obtain ⟨behind, rfl⟩ := List.head?_eq_some_iff.mp minus
          exact ⟨['-'], behind, by decide, rfl, nofun⟩
        by_cases plus : cs.head? = some '+'
        · obtain ⟨behind, rfl⟩ := List.head?_eq_some_iff.mp plus
          exact ⟨['+'], behind, by decide, rfl, nofun⟩
        · refine ⟨[], cs, by decide, rfl, fun _ c first => ⟨?_, ?_⟩⟩
          · rintro rfl
            exact minus first
          · rintro rfl
            exact plus first
      obtain ⟨sign, behind, signed, rfl, unsigned⟩ := signs
      rw [exponent_cons letter signed unsigned] at read
      split at read
      · cases read
      · cases read
      · rename_i digits behind' ended noDigit span
        obtain ⟨rfl, rfl⟩ := Prod.mk.inj (Except.ok.inj read)
        obtain ⟨each, rfl⟩ := of_spanDigits span
        have some : digits ≠ [] := by
          rintro rfl
          cases behind' with
          | nil => exact ended rfl rfl
          | cons c behind' => exact noDigit c behind' rfl rfl
        exact ⟨_, .power letter signed some each, by simp⟩
    · have unmarked : e ≠ 'e' ∧ e ≠ 'E' := not_or.mp letter
      unfold Json.exponent at read
      dsimp only at read
      rw [if_pos unmarked] at read
      obtain ⟨rfl, rfl⟩ := Prod.mk.inj (Except.ok.inj read)
      exact ⟨[], .none, rfl⟩

theorem EndsNumber.append_exponent (part : Exponent exponent power) (ends : EndsNumber rest) :
    ∀ d ∈ (exponent ++ rest).head?, d.isDigit = false ∧ d ≠ '.' := by
  cases part with
  | none => exact fun d first => ⟨(ends d first).1, (ends d first).2.1⟩
  | power letter =>
    rintro d ⟨⟩
    obtain rfl | rfl := letter
    · decide
    · decide

theorem Fraction.append_digits (part : Fraction fraction digits) (ends : ∀ d ∈ rest.head?, d.isDigit = false) :
    ∀ d ∈ (fraction ++ rest).head?, d.isDigit = false := by
  cases part with
  | none => exact ends
  | point =>
    rintro d ⟨⟩
    rfl

theorem numberValue?_eq_some {negative : Bool} {json : Json} {rest' : List Char} :
    (match if digits.isEmpty && power.isNone then wholeNumber? negative (natOfDigits whole) else none with
      | some json => Except.ok (json, rest)
      | none =>
        match Stepwise.read? negative (Stepwise.ofDigits whole digits (power.getD 0)) with
        | some x => .ok (.real x, rest)
        | none => stop .numberRange rest) = .ok (json, rest') ↔
      numberValue? negative whole digits power = some json ∧ rest = rest' := by
  unfold numberValue?
  generalize (if digits.isEmpty && power.isNone then wholeNumber? negative (natOfDigits whole) else none) = asWhole
  cases asWhole with
  | some found => simp
  | none => cases Stepwise.read? negative (Stepwise.ofDigits whole digits (power.getD 0)) <;> simp [stop]

/-- A number is read to its end. -/
theorem number_of_parts {negative : Bool} {json : Json} (part : Number negative cs json) (ends : EndsNumber rest) :
    number negative (cs ++ rest) = .ok (json, rest) := by
  cases part with
  | parts whole fraction exponent value =>
    have behind := ends.append_exponent exponent
    have boundary := fraction.append_digits fun d first => (behind d first).1
    rw [List.append_assoc, List.append_assoc]
    refine bind_eq_ok.mpr ⟨_, wholeDigits_of_whole whole boundary, ?_⟩
    refine bind_eq_ok.mpr ⟨_, fractionDigits_of_fraction fraction behind, ?_⟩
    exact bind_eq_ok.mpr ⟨_, exponent_of_part exponent ends, numberValue?_eq_some.mpr ⟨value, rfl⟩⟩

theorem parts_of_number {negative : Bool} {json : Json} (read : number negative cs = .ok (json, rest)) :
    ∃ digits, Number negative digits json ∧ cs = digits ++ rest := by
  obtain ⟨⟨whole, behind⟩, first, more⟩ := bind_eq_ok.mp read
  obtain ⟨⟨fraction, behind'⟩, second, most⟩ := bind_eq_ok.mp more
  obtain ⟨⟨power, behind''⟩, third, last⟩ := bind_eq_ok.mp most
  obtain ⟨whole', rfl⟩ := whole_of_wholeDigits first
  obtain ⟨point, fraction', rfl⟩ := fraction_of_fractionDigits second
  obtain ⟨exponent, exponent', rfl⟩ := part_of_exponent third
  obtain ⟨value, rfl⟩ := numberValue?_eq_some.mp last
  exact ⟨_, .parts whole' fraction' exponent' value, by simp⟩

end Numbers

end TextTemplate.Json
