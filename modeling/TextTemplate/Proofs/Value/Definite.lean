import TextTemplate.Proofs.Fields
import TextTemplate.Proofs.Tables
import TextTemplate.Proofs.Value.Merging
import TextTemplate.Toml.Basic
import TextTemplate.Value.Datum
import TextTemplate.Value.FromJson

/-!
Values that come from data. Nothing in them is undefined, their integers are no larger than what 64 bits hold, and
their maps, which are only built by giving names their values, have each of their names once.
-/
namespace TextTemplate

inductive Value.Definite : Value → Prop
  | none : Definite .none
  | bool (b : Bool) : Definite (.bool b)
  | int {i : Int} (fits : i ≤ integerMax) : Definite (.int i)
  | float (x : Binary64) : Definite (.float x)
  | str (s : String) : Definite (.str s)
  | seq {items : List Value} (each : ∀ item ∈ items, Definite item) : Definite (.seq items)
  | map {fields : Fields Value} (once : fields.names.Nodup) (each : ∀ entry ∈ fields, Definite entry.2) :
    Definite (.map fields)

namespace Value.Definite

variable {fields : Fields Value}

theorem empty : Definite (.map []) :=
  .map List.nodup_nil (List.forall_mem_nil _)

theorem names (definite : Definite (.map fields)) : fields.names.Nodup := by
  cases definite with
  | map once each => exact once

theorem entry (definite : Definite (.map fields)) {entry : String × Value} (member : entry ∈ fields) :
    entry.2.Definite := by
  cases definite with
  | map once each => exact each entry member

theorem insert (definite : Definite (.map fields)) (name : String) {v : Value} (value : v.Definite) :
    Definite (.map (fields.insert name v)) := by
  refine .map (Fields.nodup_insert definite.names name v) fun entry member => ?_
  obtain rfl | earlier := Fields.mem_insert member
  · exact value
  · exact definite.entry earlier

theorem entries {v : Value} (definite : v.Definite) : Definite (.map v.entries) := by
  cases definite with
  | map once each => exact .map once each
  | _ => exact empty

/-- What is put together from data is like data. -/
theorem merge {vs : List Value} (definite : ∀ v ∈ vs, v.Definite) : Definite (merge vs) := by
  rw [Value.merge, mergeFields_eq]
  refine .map (Fields.nodup_gathered _) fun entry member => ?_
  obtain ⟨v, given, member⟩ := List.mem_flatMap.mp (Fields.mem_of_mem_gathered member)
  exact (definite v given).entries.entry member

theorem ofUnsigned (n : Nat) : Definite (.ofUnsigned n) := by
  rw [Value.ofUnsigned]
  split
  · rename_i fits
    exact .int fits
  · exact .float _

end Value.Definite

namespace Datum

open Value

mutual

/-- Whatever names data repeat, they become values that are definite. -/
theorem value_definite {v : Value} : (d : Datum) → d.value = .ok v → v.Definite
  | .absent, converted | .bool _, converted | .real _, converted | .text _, converted | .bytes _, converted => by
    rw [value] at converted
    cases converted
    constructor
  | .integer _, converted => by
    rw [value] at converted
    cases converted
    split
    · rename_i fits
      exact .int fits
    · exact .float _
  | .seq items, converted => by
    rw [value] at converted
    obtain ⟨vs, each, rfl⟩ := map_eq_ok.mp converted
    exact .seq (values_definite items each)
  | .map entries, converted => by
    rw [value] at converted
    obtain ⟨fields, each, rfl⟩ := map_eq_ok.mp converted
    exact mapEntries_definite .empty entries each
  | .keyless _, converted => by
    rw [value] at converted
    cases converted
    exact .empty
  | .record entries, converted => by
    rw [value] at converted
    obtain ⟨fields, each, rfl⟩ := map_eq_ok.mp converted
    exact recordEntries_definite .empty entries each
  | .variant name content, converted => by
    rw [value] at converted
    obtain ⟨inner, inside, rfl⟩ := map_eq_ok.mp converted
    exact Definite.empty.insert name (value_definite content inside)
  | .refused _, converted => by
    rw [value] at converted
    cases converted

theorem values_definite {vs : List Value} : (items : List Datum) → values items = .ok vs → ∀ v ∈ vs, v.Definite
  | [], converted => by
    rw [values] at converted
    cases converted
    exact List.forall_mem_nil _
  | item :: items, converted => by
    rw [values] at converted
    obtain ⟨first, head, converted⟩ := bind_eq_ok.mp converted
    obtain ⟨rest, tail, converted⟩ := bind_eq_ok.mp converted
    cases converted
    exact List.forall_mem_cons.mpr ⟨value_definite item head, values_definite items tail⟩

theorem mapEntries_definite {fields all : Fields Value} (definite : Definite (.map fields)) :
    (entries : List (Datum × Datum)) → mapEntries fields entries = .ok all → Definite (.map all)
  | [], converted => by
    rw [mapEntries] at converted
    cases converted
    exact definite
  | (key, content) :: entries, converted => by
    rw [mapEntries] at converted
    obtain ⟨keyValue, -, converted⟩ := bind_eq_ok.mp converted
    obtain ⟨name, -, converted⟩ := bind_eq_ok.mp converted
    obtain ⟨v, inside, converted⟩ := bind_eq_ok.mp converted
    exact mapEntries_definite (definite.insert name (value_definite content inside)) entries converted

theorem recordEntries_definite {fields all : Fields Value} (definite : Definite (.map fields)) :
    (entries : List (String × Datum)) → recordEntries fields entries = .ok all → Definite (.map all)
  | [], converted => by
    rw [recordEntries] at converted
    cases converted
    exact definite
  | (name, content) :: entries, converted => by
    rw [recordEntries] at converted
    obtain ⟨v, inside, converted⟩ := bind_eq_ok.mp converted
    exact recordEntries_definite (definite.insert name (value_definite content inside)) entries converted

end

end Datum

namespace Value

mutual

/-- A document may have any integers, and objects that repeat names. -/
theorem ofJson_definite : (json : Json) → (ofJson json).Definite
  | .null => .none
  | .bool b => .bool b
  | .integer i => by
    rw [ofJson, ofInteger]
    split
    · rename_i negative
      exact .int (Int.le_trans (Int.le_of_lt negative) (by decide))
    · exact .ofUnsigned _
  | .real x => .float x
  | .str s => .str s
  | .arr items => .seq (ofJsons_definite items)
  | .obj members => by
    rw [ofJson]
    refine .map (Table.nodup_names_insertAll (ofMembers members)) ?_
    exact Table.forall_mem_insertAll (List.forall_mem_nil _) (ofMembers_definite members)

theorem ofJsons_definite : (jsons : List Json) → ∀ v ∈ ofJsons jsons, v.Definite
  | [] => List.forall_mem_nil _
  | json :: jsons => List.forall_mem_cons.mpr ⟨ofJson_definite json, ofJsons_definite jsons⟩

theorem ofMembers_definite : (members : List (String × Json)) → ∀ entry ∈ ofMembers members, entry.2.Definite
  | [] => List.forall_mem_nil _
  | (_, json) :: members => List.forall_mem_cons.mpr ⟨ofJson_definite json, ofMembers_definite members⟩

end

end Value

namespace Toml

mutual

/-- Every document can be converted. -/
theorem datum_converts : (item : Toml) → ∃ v, item.datum.value = .ok v
  | .text _ | .integer _ | .real _ | .bool _ | .moment _ => ⟨_, rfl⟩
  | .array items => by
    obtain ⟨vs, each⟩ := data_converts items
    exact ⟨.seq vs, by rw [datum, Datum.value, each]; rfl⟩
  | .table entries => by
    obtain ⟨fields, each⟩ := fieldData_converts entries []
    exact ⟨.map fields, by rw [datum, Datum.value, each]; rfl⟩

theorem data_converts : (items : List Toml) → ∃ vs, Datum.values (data items) = .ok vs
  | [] => ⟨[], rfl⟩
  | item :: items => by
    obtain ⟨first, head⟩ := datum_converts item
    obtain ⟨rest, tail⟩ := data_converts items
    exact ⟨first :: rest, by rw [data, Datum.values, head, tail]; rfl⟩

theorem fieldData_converts : (entries : List (String × Toml)) → (fields : Fields Value) →
    ∃ all, Datum.recordEntries fields (fieldData entries) = .ok all
  | [], fields => ⟨fields, rfl⟩
  | (name, item) :: entries, fields => by
    obtain ⟨v, head⟩ := datum_converts item
    obtain ⟨all, tail⟩ := fieldData_converts entries (fields.insert name v)
    exact ⟨all, by rw [fieldData, Datum.recordEntries, head]; exact tail⟩

end

def value (item : Toml) : Value :=
  .ofDatum item.datum

theorem value_datum (item : Toml) : item.datum.value = .ok item.value := by
  obtain ⟨v, converted⟩ := datum_converts item
  rw [value, Value.ofDatum, converted]

theorem value_definite (item : Toml) : item.value.Definite :=
  Datum.value_definite item.datum (value_datum item)

end Toml

end TextTemplate
