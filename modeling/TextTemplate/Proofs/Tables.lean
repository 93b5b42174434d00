import Mathlib.Data.List.Pairwise
import Mathlib.Data.String.Basic
import TextTemplate.Proofs.Results
import TextTemplate.Table

/-!
Entries that are put into a table and removed from it. What stands under a name is what was put there last,
in whatever order it came to the other names, and the names stay sorted.
-/
namespace TextTemplate.Table

variable {α : Type} {name other : String} {value : α}

theorem insertInto_nil (name : String) (value : α) : insertInto name value [] = [(name, value)] :=
  rfl

theorem insertInto_cons (name key : String) (value old : α) (rest : List (String × α)) :
    insertInto name value ((key, old) :: rest) =
      if name < key then (name, value) :: (key, old) :: rest
      else if key = name then (key, value) :: rest
      else (key, old) :: insertInto name value rest :=
  rfl

theorem lookup_insertInto (name : String) (value : α) (entries : List (String × α)) (other : String) :
    (insertInto name value entries).lookup other = if other = name then some value else entries.lookup other := by
  induction entries with
  | nil => exact lookup_cons_eq_if name value [] other
  | cons entry rest ih =>
    obtain ⟨key, old⟩ := entry
    rw [insertInto_cons]
    split
    · exact lookup_cons_eq_if name value ((key, old) :: rest) other
    split
    · rename_i same
      subst same
      rw [lookup_cons_eq_if, lookup_cons_eq_if]
      split <;> rfl
    · rename_i distinct
      simp only [lookup_cons_eq_if, ih]
      by_cases named : other = key
      · subst named
        simp only [if_true, if_neg distinct]
      · simp only [if_neg named]

@[simp]
theorem get?_insert (table : Table α) (name : String) (value : α) (other : String) :
    (table.insert name value).get? other = if other = name then some value else table.get? other :=
  lookup_insertInto name value table.entries other

theorem get?_erase (table : Table α) (name asked : String) :
    (table.erase name).get? asked = if asked = name then none else table.get? asked := by
  obtain ⟨entries⟩ := table
  show (entries.filter fun entry => entry.1 != name).lookup asked = if asked = name then none else entries.lookup asked
  induction entries with
  | nil => exact (ite_self none).symm
  | cons entry rest ih =>
    obtain ⟨key, value⟩ := entry
    by_cases erased : key = name
    · subst erased
      rw [List.filter_cons_of_neg (by simp), ih, lookup_cons_eq_if]
      split <;> rfl
    · rw [List.filter_cons_of_pos (by simpa using erased), lookup_cons_eq_if, lookup_cons_eq_if, ih]
      split
      · rename_i same
        rw [if_neg (same ▸ erased)]
      · rfl

theorem insertInto_comm {one two : String} (distinct : one ≠ two) (a b : α) (entries : List (String × α)) :
    insertInto one a (insertInto two b entries) = insertInto two b (insertInto one a entries) := by
  induction entries with
  | nil =>
    rcases lt_or_gt_of_ne distinct with less | less
    · simp [insertInto_nil, insertInto_cons, less, less.asymm, less.ne]
    · simp [insertInto_nil, insertInto_cons, less, less.asymm, less.ne]
  | cons entry rest ih =>
    obtain ⟨key, old⟩ := entry
    grind [insertInto_cons]

theorem mem_names {table : Table α} : name ∈ table.names ↔ table.contains name = true := by
  rw [names, contains, get?, Option.isSome_iff_ne_none, ne_eq, List.lookup_eq_none_iff]
  simp

theorem mem_insertInto {entries : List (String × α)} :
    other ∈ (insertInto name value entries).map Prod.fst ↔ other = name ∨ other ∈ entries.map Prod.fst := by
  induction entries with
  | nil => simp [insertInto_nil]
  | cons entry rest ih =>
    obtain ⟨key, old⟩ := entry
    rw [insertInto_cons]
    split
    · simp
    split
    · rename_i same
      simp [same]
    · rw [List.map_cons, List.mem_cons, ih, List.map_cons, List.mem_cons, or_left_comm]

theorem eq_or_mem_of_mem_insertInto {entries : List (String × α)} {entry : String × α}
    (member : entry ∈ insertInto name value entries) : entry = (name, value) ∨ entry ∈ entries := by
  induction entries with
  | nil => exact .inl (List.mem_singleton.mp member)
  | cons first rest ih =>
    obtain ⟨key, old⟩ := first
    rw [insertInto_cons] at member
    split at member
    · exact List.mem_cons.mp member
    split at member
    · rename_i same
      subst same
      exact (List.mem_cons.mp member).imp_right (List.mem_cons_of_mem _)
    · rcases List.mem_cons.mp member with rfl | later
      · exact .inr List.mem_cons_self
      · exact (ih later).imp_right (List.mem_cons_of_mem _)

theorem sorted_insertInto {entries : List (String × α)} (sorted : (entries.map Prod.fst).Pairwise (· < ·)) :
    ((insertInto name value entries).map Prod.fst).Pairwise (· < ·) := by
  induction entries with
  | nil => exact List.pairwise_singleton _ _
  | cons entry rest ih =>
    obtain ⟨key, old⟩ := entry
    obtain ⟨first, behind⟩ := List.pairwise_cons.mp sorted
    rw [insertInto_cons]
    split
    · rename_i before
      refine List.pairwise_cons.mpr ⟨fun other found => ?_, sorted⟩
      rcases List.mem_cons.mp found with rfl | later
      · exact before
      · exact String.lt_trans before (first other later)
    split
    · exact sorted
    · rename_i after distinct
      refine List.pairwise_cons.mpr ⟨fun other found => ?_, ih behind⟩
      rcases mem_insertInto.mp found with rfl | later
      · exact Std.lt_of_le_of_ne (String.not_lt.mp after) distinct
      · exact first other later

/-- The table with more entries put into it, one after the other. -/
def insertAll (table : Table α) (new : List (String × α)) : Table α :=
  new.foldl (fun table (name, value) => table.insert name value) table

/-- Of several values for one name the last one counts. -/
theorem get?_insertAll (table : Table α) (new : List (String × α)) (name : String) :
    (table.insertAll new).get? name = (new.reverse.lookup name).or (table.get? name) := by
  induction new generalizing table with
  | nil => rfl
  | cons first rest ih =>
    obtain ⟨key, value⟩ := first
    have step : table.insertAll ((key, value) :: rest) = (table.insert key value).insertAll rest := rfl
    rw [step, ih, get?_insert, List.reverse_cons, List.lookup_append, Option.or_assoc, lookup_cons_eq_if]
    congr 1
    split <;> rfl

/-- The names stay sorted, so that each stands once. -/
theorem sorted_insertAll {table : Table α} (sorted : table.names.Pairwise (· < ·)) (new : List (String × α)) :
    (table.insertAll new).names.Pairwise (· < ·) := by
  induction new generalizing table with
  | nil => exact sorted
  | cons first rest ih => exact ih (sorted_insertInto sorted)

theorem nodup_names_insertAll (new : List (String × α)) : (({} : Table α).insertAll new).names.Nodup := by
  have empty : ({} : Table α).names.Pairwise (· < ·) := List.Pairwise.nil
  exact (sorted_insertAll empty new).imp fun before => before.ne

theorem forall_mem_insertAll {P : α → Prop} {table : Table α} (each : ∀ entry ∈ table.entries, P entry.2)
    {new : List (String × α)} (eachNew : ∀ entry ∈ new, P entry.2) :
    ∀ entry ∈ (table.insertAll new).entries, P entry.2 := by
  induction new generalizing table with
  | nil => exact each
  | cons first rest ih =>
    obtain ⟨here, eachNew⟩ := List.forall_mem_cons.mp eachNew
    refine ih (fun entry member => ?_) eachNew
    rcases eq_or_mem_of_mem_insertInto member with rfl | earlier
    · exact here
    · exact each entry earlier

end TextTemplate.Table
