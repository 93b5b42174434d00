import Mathlib.Data.String.Basic
import TextTemplate.Proofs.Text.Tags

/-!
Escaping texts for markup. The runs between characters with an entity are copied whole, so that each character
is written once, as its entity or as itself. What is written holds nothing that markup reads, but the ampersands
of entities, and can be read back.
-/
namespace TextTemplate.Text

open String (utf8Len)

/-- What a character is written as. -/
def escapeChar (c : Char) : List Char :=
  match entity? c with
  | some entity => entity.toList
  | none => [c]

/-- Replaces each entity by its character. -/
def unescape : List Char → List Char
  | '&' :: 'l' :: 't' :: ';' :: cs => '<' :: unescape cs
  | '&' :: 'g' :: 't' :: ';' :: cs => '>' :: unescape cs
  | '&' :: 'a' :: 'm' :: 'p' :: ';' :: cs => '&' :: unescape cs
  | '&' :: 'q' :: 'u' :: 'o' :: 't' :: ';' :: cs => '"' :: unescape cs
  | '&' :: '#' :: 'x' :: '2' :: '7' :: ';' :: cs => '\x27' :: unescape cs
  | c :: cs => c :: unescape cs
  | [] => []

variable {c : Char} {cs : List Char} {entity : String}

/-- The part of a text between the ends of two others. -/
theorem extract_between (before run behind : List Char) :
    String.Pos.Raw.extract (String.ofList (before ++ run ++ behind)) ⟨utf8Len before⟩ ⟨utf8Len (before ++ run)⟩ =
      String.ofList run := by
  rw [String.utf8Len_append]
  exact String.extract_of_valid before run behind

theorem run_copied (written : String) (before run behind : List Char) :
    (if (⟨utf8Len before⟩ : String.Pos.Raw) < ⟨utf8Len (before ++ run)⟩ then
      written ++ String.Pos.Raw.extract (String.ofList (before ++ run ++ behind)) ⟨utf8Len before⟩
        ⟨utf8Len (before ++ run)⟩
    else written) = written ++ String.ofList run := by
  split
  · rw [extract_between]
  · rename_i nothing
    have empty : run = [] := by
      rw [String.Pos.Raw.lt_iff, String.utf8Len_append] at nothing
      dsimp only at nothing
      exact String.utf8Len_eq_zero.mp (by omega)
    rw [empty, String.ofList_nil, String.append_empty]

/-- What the loop has read since it last wrote is written in front of what it makes of the rest. -/
theorem escapeOnto_eq (written : String) (before run cs : List Char) :
    escapeOnto written (String.ofList (before ++ run ++ cs)) ⟨utf8Len before⟩ ⟨utf8Len (before ++ run)⟩ cs =
      written ++ String.ofList (run ++ cs.flatMap escapeChar) := by
  -- `before` has been written and `run` has not; a character without an entity joins the run, and one with an
  -- entity ends it, so that both are written and nothing of them is left.
  induction cs generalizing written before run with
  | nil => rw [escapeOnto, extract_between, List.flatMap_nil, List.append_nil]
  | cons c cs ih =>
    have whole : before ++ run ++ c :: cs = before ++ run ++ [c] ++ cs := by
      rw [List.append_assoc _ [c], List.singleton_append]
    have step : (⟨utf8Len (before ++ run)⟩ : String.Pos.Raw) + c = ⟨utf8Len (before ++ run ++ [c])⟩ := by
      rw [String.utf8Len_append _ [c]]
      simp [String.Pos.Raw.ext_iff]
    rw [escapeOnto, step, List.flatMap_cons, escapeChar]
    cases entity? c with
    | none =>
      have rest := ih written before (run ++ [c])
      rw [← List.append_assoc before, ← whole, List.append_assoc run] at rest
      exact rest
    | some entity =>
      have rest := ih (written ++ String.ofList run ++ entity) (before ++ run ++ [c]) []
      rw [List.append_nil, List.nil_append, ← whole] at rest
      dsimp only
      rw [run_copied, rest]
      simp [String.append_assoc]

/-- Each character is written once, in order. -/
theorem escape_toList (s : String) : (escape s).toList = s.toList.flatMap escapeChar := by
  have whole := escapeOnto_eq "" [] [] s.toList
  rw [List.append_nil, List.nil_append, List.nil_append, String.ofList_toList, String.empty_append] at whole
  rw [escape]
  exact (congrArg String.toList whole).trans String.toList_ofList

/-- An entity is an ampersand in front of characters that have no entity themselves. -/
theorem entity?_spelled (found : entity? c = some entity) :
    ∃ name, entity.toList = '&' :: name ∧ ∀ d ∈ name, entity? d = none := by
  have spelled : ∃ name, entity.toList = '&' :: name ∧ name.all (fun d => (entity? d).isNone) = true := by
    unfold entity? at found
    split at found <;> cases found
    all_goals exact ⟨_, rfl, rfl⟩
  simpa using spelled

theorem mem_escapeChar {d : Char} (written : d ∈ escapeChar c) : d = '&' ∨ entity? d = none := by
  rw [escapeChar] at written
  cases found : entity? c with
  | none =>
    rw [found, List.mem_singleton] at written
    exact .inr (written ▸ found)
  | some entity =>
    obtain ⟨name, spelled, plain⟩ := entity?_spelled found
    rw [found] at written
    dsimp only at written
    rw [spelled, List.mem_cons] at written
    exact written.imp_right (plain d)

/-- Of the characters that have an entity only the ampersand is written. -/
theorem not_mem_flatMap_escapeChar (special : (entity? c).isSome = true) (other : c ≠ '&') :
    c ∉ cs.flatMap escapeChar := by
  intro written
  obtain ⟨d, -, written⟩ := List.mem_flatMap.mp written
  rcases mem_escapeChar written with ampersand | plain
  · exact other ampersand
  · rw [plain] at special
    cases special

/-- An ampersand of what one character is written as is the first of its entity. -/
theorem escapeChar_ampersand {before behind : List Char} (written : escapeChar c = before ++ '&' :: behind) :
    ∃ entity, entity? c = some entity ∧ entity.toList = '&' :: behind := by
  rw [escapeChar] at written
  cases found : entity? c with
  | none =>
    rw [found] at written
    obtain ⟨rfl, single⟩ | ⟨rfl, none⟩ := List.append_eq_singleton_iff.mp written.symm
    · obtain ⟨rfl, -⟩ := List.cons.inj single
      cases found
    · cases none
  | some entity =>
    obtain ⟨name, spelled, plain⟩ := entity?_spelled found
    rw [found] at written
    dsimp only at written
    refine ⟨entity, rfl, written.trans ?_⟩
    cases before with
    | nil => rfl
    | cons d before =>
      rw [spelled] at written
      have inside : '&' ∈ name := by
        rw [(List.cons.inj written).2]
        simp
      cases plain '&' inside

/-- Each ampersand starts the entity of a character. -/
theorem flatMap_escapeChar_ampersand {before behind : List Char}
    (written : cs.flatMap escapeChar = before ++ '&' :: behind) :
    ∃ c entity, entity? c = some entity ∧ entity.toList <+: '&' :: behind := by
  induction cs generalizing before with
  | nil => cases before <;> cases written
  | cons c cs ih =>
    rw [List.flatMap_cons] at written
    -- The ampersand stands behind what the first character is written as, or in it.
    obtain ⟨later, -, rest⟩ | ⟨part, first, rest⟩ := List.append_eq_append_iff.mp written
    · exact ih rest
    · cases part with
      | nil =>
        have start : cs.flatMap escapeChar = [] ++ '&' :: behind := rest.symm
        exact ih start
      | cons d part =>
        obtain ⟨rfl, -⟩ := List.cons.inj rest
        obtain ⟨entity, found, spelled⟩ := escapeChar_ampersand first
        exact ⟨c, entity, found, cs.flatMap escapeChar, by rw [spelled, rest]⟩

theorem unescape_cons (other : c ≠ '&') (cs : List Char) : unescape (c :: cs) = c :: unescape cs := by
  rw [unescape.eq_6]
  all_goals exact fun _ same => absurd same other

theorem unescape_entity (found : entity? c = some entity) (cs : List Char) :
    unescape (entity.toList ++ cs) = c :: unescape cs := by
  unfold entity? at found
  split at found <;> cases found
  all_goals rfl

theorem unescape_flatMap (cs : List Char) : unescape (cs.flatMap escapeChar) = cs := by
  induction cs with
  | nil => rfl
  | cons c cs ih =>
    rw [List.flatMap_cons, escapeChar]
    cases found : entity? c with
    | none =>
      have other : c ≠ '&' := by
        rintro rfl
        cases found
      exact (unescape_cons other _).trans (congrArg (c :: ·) ih)
    | some entity => exact (unescape_entity found _).trans (congrArg (c :: ·) ih)

/-- Escaping replaces each character by its entity, if it has one, and keeps the others in order. What is written
holds no character with an entity but ampersands, each of which starts one; it is read back as what was escaped,
has no tags to remove, and does not depend on what is escaped next to it. -/
theorem escape_lossless (s t : String) :
    (escape s).toList = s.toList.flatMap escapeChar ∧
    (∀ c ∈ ['<', '>', '"', '\x27'], c ∉ (escape s).toList) ∧
    (∀ before behind, (escape s).toList = before ++ '&' :: behind →
      ∃ c entity, entity? c = some entity ∧ entity.toList <+: '&' :: behind) ∧
    unescape (escape s).toList = s.toList ∧
    escape (s ++ t) = escape s ++ escape t ∧
    stripTags (escape s).toList = (escape s).toList := by
  have special : ∀ c ∈ ['<', '>', '"', '\x27'], (entity? c).isSome = true ∧ c ≠ '&' := by
    simp [entity?]
  have free : ∀ c ∈ ['<', '>', '"', '\x27'], c ∉ s.toList.flatMap escapeChar :=
    fun c listed => not_mem_flatMap_escapeChar (special c listed).1 (special c listed).2
  have joined : escape (s ++ t) = escape s ++ escape t := by
    simp only [← String.toList_inj, String.toList_append, escape_toList, List.flatMap_append]
  refine ⟨escape_toList s, ?_, ?_, ?_, joined, ?_⟩
  all_goals rw [escape_toList]
  · exact free
  · exact fun before behind => flatMap_escapeChar_ampersand
  · exact unescape_flatMap s.toList
  · exact stripTags_of_not_mem (free '<' (by decide))

end TextTemplate.Text
