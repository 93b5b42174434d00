import TextTemplate.Proofs.Value.Symmetry

/-!
Values that are described and converted back. Everything undefined in a value, at any depth, becomes
none, and all else stays: numbers, texts, the order of items, and the names and the order of entries.
-/
namespace TextTemplate

namespace Value

mutual

/-- A value with none in the place of everything undefined in it. -/
def cleared : Value → Value
  | .undefined => .none
  | .seq items => .seq (clearedItems items)
  | .map entries => .map (clearedEntries entries)
  | .none => .none
  | .bool b => .bool b
  | .int i => .int i
  | .float x => .float x
  | .str s => .str s

def clearedItems : List Value → List Value
  | [] => []
  | item :: items => cleared item :: clearedItems items

def clearedEntries : List (String × Value) → List (String × Value)
  | [] => []
  | (name, v) :: entries => (name, cleared v) :: clearedEntries entries

end

/-- Every map in a value has each of its names once, and every integer in it has 64 bits. -/
structure Proper (v : Value) : Prop where
  keyed : v.Keyed
  integers : ∀ i, Within (.int i) v → integerMin ≤ i ∧ i ≤ integerMax

variable {items : List Value} {entries : List (String × Value)}

theorem clearedItems_eq_map (items : List Value) : clearedItems items = items.map cleared := by
  induction items with
  | nil => rfl
  | cons item items ih => rw [clearedItems, List.map_cons, ih]

theorem clearedEntries_eq_map (entries : List (String × Value)) :
    clearedEntries entries = entries.map fun entry => (entry.1, entry.2.cleared) := by
  induction entries with
  | nil => rfl
  | cons entry entries ih => rw [clearedEntries, List.map_cons, ih]

namespace Proper

theorem item (proper : Proper (.seq items)) {item : Value} (member : item ∈ items) : item.Proper :=
  ⟨proper.keyed.item member, fun i within => proper.integers i (.item member within)⟩

theorem entry (proper : Proper (.map entries)) {entry : String × Value} (member : entry ∈ entries) : entry.2.Proper :=
  ⟨proper.keyed.entry member, fun i within => proper.integers i (.entry member within)⟩

end Proper

section Converting

variable {f : Value → Value}

theorem values_data (each : ∀ item ∈ items, item.datum.value = .ok (f item)) :
    Datum.values (data items) = .ok (items.map f) := by
  induction items with
  | nil => rfl
  | cons item items ih =>
    obtain ⟨first, rest⟩ := List.forall_mem_cons.mp each
    rw [data, Datum.values, first, ih rest]
    rfl

/-- Entries whose names are new and differ are converted behind those that are there, in their order. -/
theorem mapEntries_entryData {fields : Fields Value} (once : (fields.names ++ entries.map Prod.fst).Nodup)
    (each : ∀ entry ∈ entries, entry.2.datum.value = .ok (f entry.2)) :
    Datum.mapEntries fields (entryData entries) = .ok (fields ++ entries.map fun entry => (entry.1, f entry.2)) := by
  induction entries generalizing fields with
  | nil => rw [entryData, Datum.mapEntries, List.map_nil, List.append_nil]
  | cons entry entries ih =>
    obtain ⟨name, v⟩ := entry
    obtain ⟨first, rest⟩ := List.forall_mem_cons.mp each
    have fresh : name ∉ fields.names := fun found =>
      (List.nodup_append.mp once).2.2 name found name List.mem_cons_self rfl
    have longer : (Fields.names (fields ++ [(name, f v)]) ++ entries.map Prod.fst).Nodup := by
      simpa [Fields.names] using once
    have named : (Datum.text name).value = .ok (.str name) := rfl
    rw [entryData, Datum.mapEntries, named, first]
    show Datum.mapEntries (fields.insert name (f v)) (entryData entries) = _
    rw [Fields.insert_fresh fresh, ih longer rest, List.append_assoc]
    rfl

theorem value_datum_seq (each : ∀ item ∈ items, item.datum.value = .ok (f item)) :
    (Value.seq items).datum.value = .ok (.seq (items.map f)) := by
  rw [datum, Datum.value, values_data each]
  rfl

theorem value_datum_map (once : (entries.map Prod.fst).Nodup)
    (each : ∀ entry ∈ entries, entry.2.datum.value = .ok (f entry.2)) :
    (Value.map entries).datum.value = .ok (.map (entries.map fun entry => (entry.1, f entry.2))) := by
  have once : (Fields.names ([] : Fields Value) ++ entries.map Prod.fst).Nodup := once
  rw [datum, Datum.value, mapEntries_entryData once each]
  rfl

/-- What is described is converted back to the value with none for everything undefined. -/
theorem value_datum {v : Value} (proper : v.Proper) : v.datum.value = .ok v.cleared := by
  induction v using Value.induction with
  | simple v seq map =>
    cases v with
    | int i =>
      have fits : i ≤ integerMax := (proper.integers i .itself).2
      rw [datum, Datum.value, if_pos fits]
      rfl
    | seq => exact absurd rfl seq
    | map => exact absurd rfl map
    | undefined | none | bool | float | str => rfl
  | seq items ih =>
    rw [cleared, clearedItems_eq_map]
    exact value_datum_seq fun item member => ih item member (proper.item member)
  | map entries ih =>
    rw [cleared, clearedEntries_eq_map]
    exact value_datum_map proper.keyed.names fun entry member => ih entry member (proper.entry member)

/-- What comes from data is converted back to itself. -/
theorem Definite.value_datum {v : Value} (definite : v.Definite) : v.datum.value = .ok v := by
  induction definite with
  | none | bool | float | str => rfl
  | int fits => rw [datum, Datum.value, if_pos fits]
  | seq each ih => simpa using value_datum_seq (f := id) ih
  | map once each ih => simpa using value_datum_map (f := id) once ih

theorem Definite.settled {v : Value} (definite : v.Definite) : v.settled = v := by
  rw [Value.settled, ofDatum, definite.value_datum]

end Converting

section Clearing

mutual

/-- A description does not tell what is undefined from none. -/
theorem datum_cleared : (v : Value) → v.cleared.datum = v.datum
  | .seq items => by rw [cleared, datum, datum, data_clearedItems items]
  | .map entries => by rw [cleared, datum, datum, entryData_clearedEntries entries]
  | .undefined | .none | .bool _ | .int _ | .float _ | .str _ => rfl

theorem data_clearedItems : (items : List Value) → data (clearedItems items) = data items
  | [] => rfl
  | item :: items => by rw [clearedItems, data, data, datum_cleared item, data_clearedItems items]

theorem entryData_clearedEntries : (entries : List (String × Value)) →
    entryData (clearedEntries entries) = entryData entries
  | [] => rfl
  | (name, v) :: entries => by
    rw [clearedEntries, entryData, entryData, datum_cleared v, entryData_clearedEntries entries]

end

theorem cleared_defined (v : Value) : ¬Within .undefined v.cleared := by
  induction v using Value.induction with
  | simple v seq map =>
    intro within
    cases v with
    | seq => exact seq rfl
    | map => exact map rfl
    | undefined | none | bool | int | float | str => cases within
  | seq items ih =>
    rw [cleared, clearedItems_eq_map, within_seq]
    simpa using ih
  | map entries ih =>
    rw [cleared, clearedEntries_eq_map, within_map]
    simpa using ih

theorem cleared_of_defined {v : Value} (defined : ¬Within .undefined v) : v.cleared = v := by
  induction v using Value.induction with
  | simple v seq map =>
    cases v with
    | undefined => exact absurd .itself defined
    | seq => exact absurd rfl seq
    | map => exact absurd rfl map
    | none | bool | int | float | str => rfl
  | seq items ih =>
    have each (item : Value) (member : item ∈ items) : item.cleared = id item :=
      ih item member fun within => defined (.item member within)
    rw [cleared, clearedItems_eq_map, List.map_congr_left each, List.map_id]
  | map entries ih =>
    have each (entry : String × Value) (member : entry ∈ entries) : (entry.1, entry.2.cleared) = id entry := by
      rw [ih entry member fun within => defined (.entry member within)]
      rfl
    rw [cleared, clearedEntries_eq_map, List.map_congr_left each, List.map_id]

/-- Equality does not see what is cleared. -/
theorem cleared_same {v : Value} (keyed : v.Keyed) (nanFree : v.NaNFree) : v.cleared.same v = true := by
  induction v using Value.induction with
  | simple v seq map =>
    cases v with
    | undefined => rfl
    | seq => exact absurd rfl seq
    | map => exact absurd rfl map
    | none | bool | int | float | str => exact same_self keyed nanFree
  | seq items ih =>
    rw [cleared, clearedItems_eq_map]
    refine same_seq.mpr ⟨items, rfl, List.forall₂_map_left_iff.mpr (List.forall₂_same.mpr fun item member => ?_)⟩
    exact ih item member (keyed.item member) fun within => nanFree (.item member within)
  | map entries ih =>
    rw [cleared, clearedEntries_eq_map]
    refine same_map.mpr ⟨entries, rfl, List.length_map _, fun entry found => ?_⟩
    obtain ⟨entry, member, rfl⟩ := List.mem_map.mp found
    refine ⟨entry.2, lookup_of_mem keyed.names member, ?_⟩
    exact ih entry member (keyed.entry member) fun within => nanFree (.entry member within)

end Clearing

/-- A value of any nesting is converted, and has none then where something was undefined. What holds nothing
undefined is converted to itself, so that another conversion changes nothing; and what is converted is equal
to what it was, provided that no number in it is none. -/
theorem settled_laws (v : Value) (proper : v.Proper) :
    v.datum.value = .ok v.cleared ∧ settled v = v.cleared ∧ ¬Within .undefined (settled v) ∧
      (¬Within .undefined v → settled v = v) ∧ settled (settled v) = settled v ∧
      (v.NaNFree → (settled v).same v = true) := by
  have converted := value_datum proper
  have settles : settled v = v.cleared := by rw [settled, ofDatum, converted]
  refine ⟨converted, settles, ?_, fun defined => ?_, ?_, fun nanFree => ?_⟩
  · exact settles ▸ cleared_defined v
  · exact settles.trans (cleared_of_defined defined)
  · rw [settles, settled, datum_cleared]
    exact settles
  · exact settles ▸ cleared_same proper.keyed nanFree

/-- Something undefined in a sequence in a map, beside a zero with a sign and a number of 64 bits. -/
theorem settled_laws_nested :
    let v : Value := .map [("z", .seq [.undefined, .float (.finite true 0), .none]), ("a", .int integerMax)]
    v.Proper ∧ settled v = .map [("z", .seq [.none, .float (.finite true 0), .none]), ("a", .int integerMax)] ∧
      settled (settled v) = settled v ∧ v.NaNFree ∧ (settled v).same v = true := by
  intro v
  have parts (part : Value) : Within part v ↔ part = v ∨
      (part = .seq [.undefined, .float (.finite true 0), .none] ∨ part = .undefined ∨ part = .float (.finite true 0) ∨
        part = .none) ∨ part = .int integerMax := by
    simp (disch := decide) [v, within_map, within_seq, within_simple]
  have proper : v.Proper := by
    constructor
    · intro entries within
      obtain rfl : entries = _ := by simpa [parts, v] using within
      decide
    · intro i within
      obtain rfl : i = integerMax := by simpa [parts, v] using within
      decide
  have nanFree : v.NaNFree := by
    intro within
    simp [parts, v] at within
  obtain ⟨-, settles, -, -, again, equal⟩ := settled_laws v proper
  exact ⟨proper, settles, again, nanFree, equal nanFree⟩

end Value

end TextTemplate
