import Mathlib.Data.List.Infix
import TextTemplate.Command.Settings
import TextTemplate.Proofs.Json.Reading
import TextTemplate.Proofs.Tables

/-!
Variables that arguments define. A mark is looked for in the whole argument, from its start: the mark of
a JSON value first, so that it counts wherever it stands, also inside of a text that is meant as the value.
-/
namespace TextTemplate.Command.Settings

section Splitting

variable {mark before after cs : List Char}

/-- A text is not split just when the mark does not stand in it. -/
theorem splitAt?_eq_none (some : mark ≠ []) : splitAt? mark cs = none ↔ ¬mark <:+: cs := by
  induction cs with
  | nil => simpa [splitAt?] using some
  | cons c cs ih =>
    rw [splitAt?, List.infix_cons_iff, ← List.isPrefixOf_iff_prefix]
    split
    · rename_i here
      simp [here]
    · rename_i later
      simp [later, ih]

/-- What precedes the first place of a mark does not contain it, even with the mark itself but for its
last character. -/
theorem splitAt?_first (some : mark ≠ []) (first : ¬mark <:+: before ++ mark.dropLast) :
    splitAt? mark (before ++ mark ++ after) = .some (before, after) := by
  induction before with
  | nil =>
    obtain ⟨c, rest, rfl⟩ := List.exists_cons_of_ne_nil some
    rw [List.nil_append, List.cons_append, splitAt?, ← List.cons_append,
      if_pos (List.isPrefixOf_iff_prefix.mpr (List.prefix_append ..)), List.drop_left]
  | cons c before ih =>
    rw [List.cons_append, List.infix_cons_iff, not_or] at first
    have later : ¬mark <+: c :: (before ++ mark ++ after) := fun here => by
      have front : c :: (before ++ mark.dropLast) <+: c :: (before ++ mark ++ after) := by
        rw [List.append_assoc, List.cons_prefix_cons, List.prefix_append_right_inj]
        exact ⟨rfl, (List.dropLast_prefix mark).trans (List.prefix_append ..)⟩
      refine first.1 (List.prefix_of_prefix_length_le here front ?_)
      rw [List.length_cons, List.length_append, List.length_dropLast]
      omega
    rw [List.cons_append, List.cons_append, splitAt?, if_neg (mt List.isPrefixOf_iff_prefix.mp later), ih first.2]
    rfl

theorem splitAt?_whole (split : splitAt? mark cs = some (before, after)) : cs = before ++ mark ++ after := by
  induction cs generalizing before with
  | nil => cases split
  | cons c cs ih =>
    rw [splitAt?] at split
    split at split
    · rename_i here
      obtain ⟨rest, whole⟩ := List.isPrefixOf_iff_prefix.mp here
      obtain ⟨rfl, rfl⟩ := Prod.mk.inj (Option.some.inj split)
      rw [← whole, List.drop_left]
      rfl
    · obtain ⟨⟨front, rest⟩, found, same⟩ := Option.map_eq_some_iff.mp split
      obtain ⟨rfl, rfl⟩ := Prod.mk.inj same
      rw [ih found]
      rfl

/-- A front without the character that a mark starts with has no part in a place of the mark. -/
theorem infix_append_of_not_mem {c : Char} {front : List Char} (free : c ∉ front) :
    c :: mark <:+: front ++ cs ↔ c :: mark <:+: cs := by
  induction front with
  | nil => rfl
  | cons first front ih =>
    obtain ⟨other, free⟩ := not_or.mp (mt List.mem_cons.mpr free)
    rw [List.cons_append, List.infix_cons_iff, List.cons_prefix_cons, ih free]
    simp [other]

end Splitting

/-- A variable with the value of a JSON text. -/
def jsonDefine (name raw : String) : Except Report (String × Value) :=
  match Json.read raw with
  | .ok json => .ok (name, .ofJson json)
  | .error e => .error (.because ("invalid raw value '" ++ raw ++ "' (not valid JSON)") e.message)

theorem jsonDefine_eq_ok {name raw : String} {binding : String × Value} :
    jsonDefine name raw = .ok binding ↔ ∃ json, Json.IsText raw json ∧ binding = (name, .ofJson json) := by
  simp only [← Json.read_eq_ok]
  unfold jsonDefine
  split
  · rename_i read
    simp [read, eq_comm]
  · rename_i read
    simp [read]

section Forms

variable {name : String}

theorem readDefine_split {argument : String} {before after : List Char}
    (split : splitAt? ":=".toList argument.toList = some (before, after)) :
    readDefine argument = jsonDefine (String.ofList before) (String.ofList after) := by
  have split : splitAt? [':', '='] argument.toList = some (before, after) := split
  rw [readDefine, split]
  rfl

/-- The first mark of a JSON value ends the name, whatever else stands in it. -/
theorem readDefine_json (first : ¬":=".toList <:+: name.toList ++ [':']) (raw : String) :
    readDefine (name ++ ":=" ++ raw) = jsonDefine name raw := by
  have split : splitAt? ":=".toList (name ++ ":=" ++ raw).toList = some (name.toList, raw.toList) := by
    rw [String.toList_append, String.toList_append]
    exact splitAt?_first (by decide) first
  rw [readDefine_split split, String.ofList_toList, String.ofList_toList]

theorem readDefine_text {text : String} (equal : '=' ∉ name.toList)
    (unmarked : ¬":=".toList <:+: (name ++ "=" ++ text).toList) :
    readDefine (name ++ "=" ++ text) = .ok (name, .str text) := by
  have unsplit : splitAt? [':', '='] (name ++ "=" ++ text).toList = none := (splitAt?_eq_none (by decide)).mpr unmarked
  have split : splitAt? ['='] (name ++ "=" ++ text).toList = some (name.toList, text.toList) := by
    rw [String.toList_append, String.toList_append]
    refine splitAt?_first (by decide) ?_
    rwa [List.dropLast_singleton, List.append_nil, List.singleton_infix_iff]
  rw [readDefine, unsplit]
  dsimp only
  rw [split]
  dsimp only
  rw [String.ofList_toList, String.ofList_toList]

/-- Without a mark, a name is defined as true. -/
theorem readDefine_flag (equal : '=' ∉ name.toList) : readDefine name = .ok (name, .bool true) := by
  have unsplit (mark : List Char) (some : '=' ∈ mark) : splitAt? mark name.toList = none :=
    (splitAt?_eq_none (List.ne_nil_of_mem some)).mpr fun inside => equal (inside.subset some)
  rw [readDefine, unsplit _ (by decide)]
  dsimp only
  rw [unsplit _ (by decide)]

end Forms

section Adding

/-- Arguments are read one after the other, and what they define is added in their order. -/
theorem addDefines_eq (settings : Settings) (arguments : List String) :
    settings.addDefines arguments = (arguments.mapM readDefine).map fun bindings =>
      { settings with defines := settings.defines.insertAll bindings } := by
  induction arguments generalizing settings with
  | nil => rfl
  | cons argument arguments ih =>
    rw [addDefines, List.mapM_cons]
    cases readDefine argument with
    | error report => rfl
    | ok binding =>
      dsimp only
      rw [ih]
      cases arguments.mapM readDefine <;> rfl

/-- An argument that gives one variable its value, whatever is defined already, and leaves all others alone. -/
def Defines (argument name : String) (value : Value) : Prop :=
  ∀ settings : Settings, ∃ settings', settings.addDefines [argument] = .ok settings' ∧
    ∀ other, settings'.defines.get? other = if other = name then some value else settings.defines.get? other

theorem addDefines_singleton (settings : Settings) (argument : String) :
    settings.addDefines [argument] = (readDefine argument).map fun binding =>
      { settings with defines := settings.defines.insert binding.1 binding.2 } := by
  rw [addDefines_eq, List.mapM_cons]
  cases readDefine argument <;> rfl

theorem defines_iff {argument name : String} {value : Value} :
    Defines argument name value ↔ readDefine argument = .ok (name, value) := by
  constructor
  · intro defines
    obtain ⟨settings', added, found⟩ := defines {}
    rw [addDefines_singleton] at added
    obtain ⟨⟨name', value'⟩, reads, rfl⟩ := map_eq_ok.mp added
    have here := found name'
    rw [Table.get?_insert, if_pos rfl] at here
    split at here
    · rename_i same
      obtain rfl := Option.some.inj here
      rw [reads, same]
    · cases here
  · intro reads settings
    exact ⟨_, by rw [addDefines_singleton, reads]; rfl, fun other => Table.get?_insert ..⟩

end Adding

section Keys

variable {key : String}

/-- A colon at the end is half of a mark, and no place of one. -/
theorem infix_concat_colon {cs : List Char} : ":=".toList <:+: cs ++ [':'] ↔ ":=".toList <:+: cs := by
  have half : ¬":=".toList <:+ cs ++ [':'] := fun behind => by
    obtain ⟨front, same⟩ := behind
    have last := congrArg List.getLast? same
    simp at last
  rw [List.infix_concat_iff]
  exact or_iff_right half

theorem marked_key (colon : ':' ∉ key.toList) (text : String) :
    ":=".toList <:+: (key ++ "=" ++ text).toList ↔ ":=".toList <:+: text.toList := by
  have free : ':' ∉ (key ++ "=").toList := by simpa using colon
  rw [String.toList_append]
  exact infix_append_of_not_mem free

/-- A key without signs of equality and colons defines the text behind its sign of equality, unless the mark of a JSON
value stands somewhere in that text. Then the first such mark ends the name, and what follows it is read as JSON.
Behind a key, that mark defines the value of every JSON text, and all else is refused. -/
theorem defines_laws (equal : '=' ∉ key.toList) (colon : ':' ∉ key.toList) (text : String) :
    (Defines (key ++ "=" ++ text) key (.str text) ↔ ¬":=".toList <:+: text.toList) ∧
      (∀ front raw, text = front ++ ":=" ++ raw → ¬":=".toList <:+: front.toList →
        readDefine (key ++ "=" ++ text) = jsonDefine (key ++ "=" ++ front) raw) ∧
      (∀ json, Json.IsText text json → Defines (key ++ ":=" ++ text) key (.ofJson json)) ∧
      ((¬∃ json, Json.IsText text json) → ∀ settings : Settings, ∃ e, Json.read text = .error e ∧
        settings.addDefines [key ++ ":=" ++ text] =
          .error (.because ("invalid raw value '" ++ text ++ "' (not valid JSON)") e.message)) := by
  have inner : readDefine (key ++ ":=" ++ text) = jsonDefine key text := by
    refine readDefine_json (fun inside => colon ?_) text
    exact (infix_concat_colon.mp inside).subset (by decide)
  refine ⟨?_, fun front raw whole first => ?_, fun json valid => ?_, fun invalid settings => ?_⟩
  · rw [defines_iff, ← marked_key colon]
    refine ⟨fun reads marked => ?_, readDefine_text equal⟩
    obtain ⟨⟨before, after⟩, split⟩ :=
      Option.ne_none_iff_exists'.mp (mt (splitAt?_eq_none (by decide)).mp (not_not_intro marked))
    rw [readDefine_split split] at reads
    obtain ⟨json, -, same⟩ := jsonDefine_eq_ok.mp reads
    obtain ⟨rfl, -⟩ := Prod.mk.inj same
    have whole := splitAt?_whole split
    simp at whole
  · have parts : key ++ "=" ++ (front ++ ":=" ++ raw) = key ++ "=" ++ front ++ ":=" ++ raw := by
      simp only [String.append_assoc]
    rw [whole, parts]
    refine readDefine_json (fun inside => first ?_) raw
    exact (marked_key colon front).mp (infix_concat_colon.mp inside)
  · exact defines_iff.mpr (inner.trans (jsonDefine_eq_ok.mpr ⟨json, valid, rfl⟩))
  · cases read : Json.read text with
    | ok json => exact absurd ⟨json, Json.read_eq_ok.mp read⟩ invalid
    | error e =>
      refine ⟨e, rfl, ?_⟩
      rw [addDefines_singleton, inner, jsonDefine, read]
      rfl

end Keys

/-- Signs of equality and colons are part of a text, and a number is a JSON text. -/
theorem defines_laws_name :
    Defines "name=a=b: c" "name" (.str "a=b: c") ∧ Defines "id:=42" "id" (.ofJson (.integer 42)) := by
  have text : "name" ++ "=" ++ "a=b: c" = "name=a=b: c" := by decide
  have json : "id" ++ ":=" ++ "42" = "id:=42" := by decide
  have digits : Json.Whole ['4', '2'] := .digits (by decide) (List.all_eq_true.mp (by decide))
  have number : Json.IsText "42" (.integer 42) :=
    .spaced (by decide : "42".toList = [] ++ ['4', '2'] ++ []) Json.blank_nil Json.blank_nil
      (.number (.parts digits .none .none rfl))
  rw [← text, ← json]
  exact ⟨(defines_laws (by decide) (by decide) _).1.mpr (by decide),
    (defines_laws (by decide) (by decide) _).2.2.1 _ number⟩

/-- The mark inside of a text is taken for that of the argument. -/
theorem defines_laws_marked :
    '=' ∉ "key".toList ∧ ':' ∉ "key".toList ∧ ¬Defines ("key" ++ "=" ++ "a:=1") "key" (.str "a:=1") ∧
      Defines ("key" ++ "=" ++ "a:=1") "key=a" (.ofJson (.integer 1)) := by
  have digit : Json.Whole ['1'] := .digits (by decide) (List.all_eq_true.mp (by decide))
  have number : Json.IsText "1" (.integer 1) :=
    .spaced (by decide : "1".toList = [] ++ ['1'] ++ []) Json.blank_nil Json.blank_nil
      (.number (.parts digit .none .none rfl))
  have argument : "key" ++ "=" ++ "a:=1" = "key=a" ++ ":=" ++ "1" := by decide
  have reads : readDefine ("key" ++ "=" ++ "a:=1") = .ok ("key=a", .ofJson (.integer 1)) := by
    rw [argument, readDefine_json (by decide)]
    exact jsonDefine_eq_ok.mpr ⟨_, number, rfl⟩
  refine ⟨by decide, by decide, fun defines => ?_, defines_iff.mpr reads⟩
  rw [defines_iff, reads] at defines
  have other : "key=a" ≠ "key" := by decide
  exact other (Prod.mk.inj (Except.ok.inj defines)).1

end TextTemplate.Command.Settings
