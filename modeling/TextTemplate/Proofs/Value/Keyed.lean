import TextTemplate.Proofs.Value.Definite
import TextTemplate.Proofs.Value.Equality

/-!
Maps that have each of their names once, at any depth of a value. Maps are only built by giving names
their values, so every value that comes from data is of this kind.
-/
namespace TextTemplate

namespace Value

/-- A value itself and, at any depth, the items and the entries in it. -/
inductive Within (part : Value) : Value → Prop
  | itself : Within part part
  | item {item : Value} {items : List Value} (member : item ∈ items) (within : Within part item) :
    Within part (.seq items)
  | entry {entry : String × Value} {entries : List (String × Value)} (member : entry ∈ entries)
    (within : Within part entry.2) : Within part (.map entries)

theorem within_seq {part : Value} {items : List Value} :
    Within part (.seq items) ↔ part = .seq items ∨ ∃ item ∈ items, Within part item := by
  constructor
  · rintro (_ | ⟨member, within⟩)
    · exact .inl rfl
    · exact .inr ⟨_, member, within⟩
  · rintro (rfl | ⟨item, member, within⟩)
    · exact .itself
    · exact .item member within

theorem within_map {part : Value} {entries : List (String × Value)} :
    Within part (.map entries) ↔ part = .map entries ∨ ∃ entry ∈ entries, Within part entry.2 := by
  constructor
  · rintro (_ | _ | ⟨member, within⟩)
    · exact .inl rfl
    · exact .inr ⟨_, member, within⟩
  · rintro (rfl | ⟨entry, member, within⟩)
    · exact .itself
    · exact .entry member within

theorem within_simple {part v : Value} (seq : v.kind ≠ .seq) (map : v.kind ≠ .map) : Within part v ↔ part = v := by
  constructor
  · rintro (_ | _ | _)
    · rfl
    · exact absurd rfl seq
    · exact absurd rfl map
  · rintro rfl
    exact .itself

/-- Every map in a value has each of its names once. -/
def Keyed (v : Value) : Prop :=
  ∀ entries, Within (.map entries) v → (entries.map Prod.fst).Nodup

variable {items : List Value} {fields : Fields Value}

namespace Keyed

theorem item (keyed : Keyed (.seq items)) {item : Value} (member : item ∈ items) : item.Keyed :=
  fun entries within => keyed entries (.item member within)

theorem entry (keyed : Keyed (.map fields)) {entry : String × Value} (member : entry ∈ fields) : entry.2.Keyed :=
  fun entries within => keyed entries (.entry member within)

theorem names (keyed : Keyed (.map fields)) : fields.names.Nodup :=
  keyed fields .itself

theorem of_simple {v : Value} (seq : v.kind ≠ .seq) (map : v.kind ≠ .map) : v.Keyed := by
  intro entries within
  cases within with
  | itself => exact absurd rfl map
  | item => exact absurd rfl seq
  | entry => exact absurd rfl map

theorem of_items (each : ∀ item ∈ items, item.Keyed) : Keyed (.seq items) := by
  intro entries within
  cases within with
  | item member within => exact each _ member entries within

theorem of_entries (once : fields.names.Nodup) (each : ∀ entry ∈ fields, entry.2.Keyed) : Keyed (.map fields) := by
  intro entries within
  cases within with
  | itself => exact once
  | entry member within => exact each _ member entries within

theorem empty : Keyed (.map []) :=
  of_entries List.nodup_nil fun _ member => nomatch member

theorem insert (keyed : Keyed (.map fields)) (name : String) {v : Value} (value : v.Keyed) :
    Keyed (.map (fields.insert name v)) := by
  refine of_entries (Fields.nodup_insert keyed.names name v) fun entry member => ?_
  obtain rfl | earlier := Fields.mem_insert member
  · exact value
  · exact keyed.entry earlier

theorem of_entry (name : String) {v : Value} (value : v.Keyed) : Keyed (.map [(name, v)]) :=
  empty.insert name value

end Keyed

end Value

theorem Value.Definite.keyed {v : Value} (definite : v.Definite) : v.Keyed := by
  induction definite with
  | none | bool | int | float | str => exact .of_simple nofun nofun
  | seq each ih => exact .of_items ih
  | map once each ih => exact .of_entries once ih

/-- Data become values in which every map has each of its names once, whatever names the data repeat. -/
theorem Datum.value_keyed {v : Value} (d : Datum) (converted : d.value = .ok v) : v.Keyed :=
  (value_definite d converted).keyed

end TextTemplate
