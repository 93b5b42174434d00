import Mathlib.Data.List.Induction
import Mathlib.Data.List.Nodup
import TextTemplate.Fields
import TextTemplate.Proofs.Results

/-!
Named entries in the order of their first insertion. Entries in which names repeat are gathered into
fields: each name once, where it first stands, with the value that it has last.
-/
namespace TextTemplate

section Firsts

variable {α : Type} [BEq α] [LawfulBEq α]

open scoped Classical in
/-- What comes last is a first occurrence only if it is new. -/
theorem eraseDups_concat (all : List α) (a : α) :
    (all ++ [a]).eraseDups = if a ∈ all then all.eraseDups else all.eraseDups ++ [a] := by
  rw [List.eraseDups_append]
  by_cases member : a ∈ all
  · rw [if_pos member]
    simp [List.removeAll, member]
  · rw [if_neg member]
    simp [List.removeAll, member, List.eraseDups_cons]

theorem nodup_eraseDups (all : List α) : all.eraseDups.Nodup := by
  induction all using List.reverseRecOn with
  | nil => exact List.nodup_nil
  | append_singleton all a ih =>
    rw [eraseDups_concat]
    split
    · exact ih
    · rename_i fresh
      rw [← List.concat_eq_append]
      exact ih.concat (mt List.mem_eraseDups.mp fresh)

theorem eraseDups_of_nodup {all : List α} (once : all.Nodup) : all.eraseDups = all := by
  induction all using List.reverseRecOn with
  | nil => rfl
  | append_singleton all a ih =>
    obtain ⟨once, -, apart⟩ := List.nodup_append.mp once
    rw [eraseDups_concat, if_neg (fun member => apart a member a List.mem_cons_self rfl), ih once]

theorem eraseDups_append_eraseDups (first rest : List α) :
    (first ++ rest.eraseDups).eraseDups = (first ++ rest).eraseDups := by
  induction rest using List.reverseRecOn with
  | nil => rfl
  | append_singleton rest a ih =>
    rw [eraseDups_concat, ← List.append_assoc, eraseDups_concat]
    by_cases member : a ∈ rest
    · rw [if_pos member, if_pos (List.mem_append_right first member), ih]
    · rw [if_neg member, ← List.append_assoc, eraseDups_concat, ih]
      simp only [List.mem_append, List.mem_eraseDups]

end Firsts

variable {α : Type}

/-- Where every name stands once, each entry is found by its name. -/
theorem lookup_of_mem {entries : List (String × α)} {name : String} {a : α} (once : (entries.map Prod.fst).Nodup)
    (member : (name, a) ∈ entries) : entries.lookup name = some a := by
  obtain ⟨before, after, rfl⟩ := List.append_of_mem member
  refine List.lookup_eq_some_iff.mpr ⟨before, after, rfl, fun entry earlier => ?_⟩
  rw [List.map_append, List.map_cons] at once
  have apart := (List.nodup_append.mp once).2.2 entry.1 (List.mem_map_of_mem earlier) name List.mem_cons_self
  exact bne_iff_ne.mpr apart.symm

namespace Fields

theorem insert_cons (key name : String) (old value : α) (rest : Fields α) :
    insert ((key, old) :: rest) name value =
      if key = name then (key, value) :: rest else (key, old) :: rest.insert name value :=
  rfl

theorem get?_insert (fields : Fields α) (name : String) (value : α) (other : String) :
    (fields.insert name value).get? other = if other = name then some value else fields.get? other := by
  induction fields with
  | nil => exact lookup_cons_eq_if name value [] other
  | cons field rest ih =>
    obtain ⟨key, old⟩ := field
    rw [insert_cons]
    split
    · rename_i same
      subst same
      simp only [get?, lookup_cons_eq_if]
      split <;> rfl
    · rename_i distinct
      simp only [get?, lookup_cons_eq_if] at ih ⊢
      rw [ih]
      by_cases named : other = key
      · subst named
        simp only [if_true, if_neg distinct]
      · simp only [if_neg named]

/-- Of several values for one name the last one counts. -/
theorem get?_insertAll (fields new : Fields α) (name : String) :
    (fields.insertAll new).get? name = (new.reverse.lookup name).or (fields.get? name) := by
  induction new generalizing fields with
  | nil => rfl
  | cons first rest ih =>
    obtain ⟨key, value⟩ := first
    have step : fields.insertAll ((key, value) :: rest) = (fields.insert key value).insertAll rest := rfl
    rw [step, ih, get?_insert, List.reverse_cons, List.lookup_append, Option.or_assoc]
    congr 1
    rw [lookup_cons_eq_if]
    split <;> rfl

theorem mem_insert {fields : Fields α} {name : String} {value : α} {entry : String × α}
    (member : entry ∈ fields.insert name value) : entry = (name, value) ∨ entry ∈ fields := by
  induction fields with
  | nil => exact .inl (List.mem_singleton.mp member)
  | cons field rest ih =>
    rw [insert_cons] at member
    split at member
    · rename_i same
      rw [same] at member
      exact (List.mem_cons.mp member).imp_right (List.mem_cons_of_mem field)
    · obtain rfl | later := List.mem_cons.mp member
      · exact .inr List.mem_cons_self
      · exact (ih later).imp_right (List.mem_cons_of_mem field)

theorem names_insert (fields : Fields α) (name : String) (value : α) :
    (fields.insert name value).names = if name ∈ fields.names then fields.names else fields.names ++ [name] := by
  induction fields with
  | nil => rfl
  | cons field rest ih =>
    obtain ⟨key, old⟩ := field
    rw [insert_cons]
    by_cases same : key = name
    · rw [if_pos same]
      simp [names, same]
    · have later : name ∈ names ((key, old) :: rest) ↔ name ∈ names rest := by simp [names, Ne.symm same]
      have first (fields : Fields α) : names ((key, old) :: fields) = key :: names fields := rfl
      rw [if_neg same, if_congr later rfl rfl, first, first, ih]
      split
      · rfl
      · rfl

/-- A name that gets a value stands once if every name did so before. -/
theorem nodup_insert {fields : Fields α} (once : fields.names.Nodup) (name : String) (value : α) :
    (fields.insert name value).names.Nodup := by
  rw [names_insert]
  split
  · exact once
  · rename_i fresh
    rw [← List.concat_eq_append]
    exact once.concat fresh

/-- A new name goes behind the others. -/
theorem insert_fresh {fields : Fields α} {name : String} (fresh : name ∉ fields.names) (value : α) :
    fields.insert name value = fields ++ [(name, value)] := by
  induction fields with
  | nil => rfl
  | cons field rest ih =>
    obtain ⟨other, later⟩ := not_or.mp (mt List.mem_cons.mpr fresh)
    rw [insert_cons, if_neg (Ne.symm other), ih later]
    rfl

/-- Each name stands where it came first. -/
theorem names_insertAll {fields : Fields α} (once : fields.names.Nodup) (new : Fields α) :
    (fields.insertAll new).names = (fields.names ++ new.names).eraseDups := by
  induction new using List.reverseRecOn with
  | nil => rw [names.eq_def [], List.map_nil, List.append_nil, eraseDups_of_nodup once, insertAll, List.foldl_nil]
  | append_singleton new field ih =>
    obtain ⟨name, value⟩ := field
    have last : fields.insertAll (new ++ [(name, value)]) = (fields.insertAll new).insert name value :=
      List.foldl_concat ..
    have behind : names (new ++ [(name, value)]) = names new ++ [name] := List.map_append
    rw [last, names_insert, ih, behind, ← List.append_assoc, eraseDups_concat]
    simp only [List.mem_eraseDups]

theorem nodup_insertAll {fields : Fields α} (once : fields.names.Nodup) (new : Fields α) :
    (fields.insertAll new).names.Nodup := by
  rw [names_insertAll once]
  exact nodup_eraseDups _

/-- Fields are told by their names and the value of each. -/
theorem eq_filterMap_names {fields : Fields α} (once : fields.names.Nodup) :
    fields = fields.names.filterMap fun name => (fields.get? name).map (Prod.mk name) := by
  have found (field : String × α) (member : field ∈ fields) :
      (fields.get? field.1).map (Prod.mk field.1) = some field := by
    rw [get?, lookup_of_mem once member]
    rfl
  calc
    fields = fields.filterMap some := List.filterMap_some.symm
    _ = fields.filterMap fun field => (fields.get? field.1).map (Prod.mk field.1) :=
      List.filterMap_congr fun field member => (found field member).symm
    _ = fields.names.filterMap fun name => (fields.get? name).map (Prod.mk name) := by
      rw [names, List.filterMap_map]
      rfl

theorem ext_names {fields others : Fields α} (once : fields.names.Nodup) (names : fields.names = others.names)
    (values : ∀ name, fields.get? name = others.get? name) : fields = others := by
  have once' : others.names.Nodup := names ▸ once
  rw [eq_filterMap_names once, names, funext values]
  exact (eq_filterMap_names once').symm

/-- Where each name stands once, it is found from either end. -/
theorem lookup_reverse {fields : Fields α} (once : fields.names.Nodup) (name : String) :
    fields.reverse.lookup name = fields.get? name := by
  have once' : (fields.reverse.map Prod.fst).Nodup := by
    rw [List.map_reverse]
    exact List.nodup_reverse.mpr once
  refine Option.ext fun a => ⟨fun found => ?_, fun found => ?_⟩
  · exact lookup_of_mem once (List.mem_reverse.mp (mem_of_lookup found))
  · exact lookup_of_mem once' (List.mem_reverse.mpr (mem_of_lookup found))

theorem nodup_names_nil : (names ([] : Fields α)).Nodup :=
  List.nodup_nil

/-- Each name that is given once, where it first stands, with the value that it is given last. -/
def gathered (given : Fields α) : Fields α :=
  given.names.eraseDups.filterMap fun name => (given.reverse.lookup name).map (Prod.mk name)

/-- Giving names their values one after the other gathers them. -/
theorem insertAll_nil (given : Fields α) : insertAll [] given = gathered given := by
  rw [eq_filterMap_names (nodup_insertAll nodup_names_nil given), names_insertAll nodup_names_nil, gathered]
  refine List.filterMap_congr fun name _ => ?_
  rw [get?_insertAll]
  simp [get?]

theorem names_gathered (given : Fields α) : (gathered given).names = given.names.eraseDups := by
  rw [← insertAll_nil, names_insertAll nodup_names_nil]
  rfl

theorem nodup_gathered (given : Fields α) : (gathered given).names.Nodup := by
  rw [names_gathered]
  exact nodup_eraseDups _

theorem get?_gathered (given : Fields α) (name : String) :
    (gathered given).get? name = given.reverse.lookup name := by
  rw [← insertAll_nil, get?_insertAll]
  exact Option.or_none

theorem mem_of_mem_gathered {given : Fields α} {entry : String × α} (member : entry ∈ gathered given) :
    entry ∈ given := by
  obtain ⟨name, -, kept⟩ := List.mem_filterMap.mp member
  obtain ⟨value, last, rfl⟩ := Option.map_eq_some_iff.mp kept
  exact List.mem_reverse.mp (mem_of_lookup last)

/-- Entries may be gathered before they are added. -/
theorem insertAll_gathered {fields : Fields α} (once : fields.names.Nodup) (new : Fields α) :
    fields.insertAll (gathered new) = fields.insertAll new := by
  refine ext_names (nodup_insertAll once _) ?_ fun name => ?_
  · rw [names_insertAll once, names_insertAll once, names_gathered]
    exact eraseDups_append_eraseDups fields.names new.names
  · rw [get?_insertAll, get?_insertAll, lookup_reverse (nodup_gathered new), get?_gathered]

end Fields

end TextTemplate
