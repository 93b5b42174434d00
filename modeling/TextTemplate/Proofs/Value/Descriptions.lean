import TextTemplate.Value.Delivery

/-!
Descriptions of data, handed over part by part. What is received is the value that the description has.
-/
namespace TextTemplate

namespace Datum

open Delivery

mutual

/-- Data of a description are handed over by its parts, a key in front of each value of a map. -/
def delivery : Datum → Delivery
  | .absent => .unit
  | .bool b => .bool b
  | .integer i => if i < 0 then .signed i else .unsigned i.toNat
  | .real x => .real x
  | .text s => .text s
  | .bytes bs => .bytes bs
  | .seq items => .seq (deliveries items)
  | .map entries => .map (entryCalls entries)
  | .keyless values => .map (valueCalls values)
  | .record fields => .struct (fieldDeliveries fields)
  | .variant name content => .newtypeVariant name (delivery content)
  | .refused message => .refused message

def deliveries : List Datum → List Delivery
  | [] => []
  | item :: items => delivery item :: deliveries items

def entryCalls : List (Datum × Datum) → List (MapRole × Delivery)
  | [] => []
  | (key, content) :: entries => (.key, delivery key) :: (.value, delivery content) :: entryCalls entries

def valueCalls : List Datum → List (MapRole × Delivery)
  | [] => []
  | content :: values => (.value, delivery content) :: valueCalls values

def fieldDeliveries : List (String × Datum) → List (String × Delivery)
  | [] => []
  | (name, content) :: fields => (name, delivery content) :: fieldDeliveries fields

end

theorem receive_integer (i : Int) : (integer i).delivery.receive = (integer i).value := by
  rw [delivery, value]
  split
  · rename_i negative
    have fits : i ≤ integerMax := Int.le_trans (Int.le_of_lt negative) (by decide)
    rw [receive, if_pos fits]
  · rename_i positive
    rw [receive, Value.ofUnsigned, Int.toNat_of_nonneg (Int.not_lt.mp positive)]
    rfl

theorem receiveCalls_entry (fields : Fields Value) (key content : Delivery) (calls : List (MapRole × Delivery)) :
    receiveCalls ⟨fields, none⟩ ((.key, key) :: (.value, content) :: calls) = (do
      let k ← key.receive
      let name ← keyText k
      let v ← content.receive
      receiveCalls ⟨fields.insert name v, none⟩ calls) := by
  simp only [receiveCalls]

theorem receiveCalls_valueCalls (fields : Fields Value) (values : List Datum) :
    receiveCalls ⟨fields, none⟩ (valueCalls values) = .ok ⟨fields, none⟩ := by
  induction values with
  | nil => rfl
  | cons content values ih => exact ih

mutual

/-- Handed over part by part, a description becomes the value that it has as a whole. -/
theorem receive_delivery : (d : Datum) → d.delivery.receive = d.value
  | .absent | .bool _ | .real _ | .text _ | .bytes _ | .refused _ => rfl
  | .integer i => receive_integer i
  | .seq items => by
    rw [delivery, value, receive, receiveItems_deliveries]
    cases values items <;> rfl
  | .map entries => by
    rw [delivery, value, receive, receiveCalls_entryCalls]
    cases mapEntries [] entries <;> rfl
  | .keyless values => by
    rw [delivery, value, receive, receiveCalls_valueCalls]
    rfl
  | .record fields => by
    rw [delivery, value, receive, receiveFields_fieldDeliveries]
    cases recordEntries [] fields <;> rfl
  | .variant name content => by
    rw [delivery, value, receive, receive_delivery content]
    cases value content <;> rfl

theorem receiveItems_deliveries (taken : List Value) : (items : List Datum) →
    receiveItems taken (deliveries items) = values items >>= fun vs => .ok (taken ++ vs)
  | [] => by
    rw [deliveries, receiveItems, values]
    exact congrArg Except.ok (List.append_nil taken).symm
  | item :: items => by
    rw [deliveries, receiveItems, values, receive_delivery item]
    simp only [bind_assoc]
    refine bind_congr fun v => ?_
    rw [receiveItems_deliveries (taken ++ [v]) items]
    exact bind_congr fun vs => congrArg Except.ok (List.append_assoc taken [v] vs)

theorem receiveCalls_entryCalls (fields : Fields Value) : (entries : List (Datum × Datum)) →
    receiveCalls ⟨fields, none⟩ (entryCalls entries) = mapEntries fields entries >>= fun all => .ok ⟨all, none⟩
  | [] => rfl
  | (key, content) :: entries => by
    rw [entryCalls, receiveCalls_entry, mapEntries, receive_delivery key, receive_delivery content]
    simp only [bind_assoc]
    refine bind_congr fun k => bind_congr fun name => bind_congr fun v => ?_
    exact receiveCalls_entryCalls (fields.insert name v) entries

theorem receiveFields_fieldDeliveries (fields : Fields Value) : (entries : List (String × Datum)) →
    receiveFields fields (fieldDeliveries entries) = recordEntries fields entries
  | [] => rfl
  | (name, content) :: entries => by
    rw [fieldDeliveries, receiveFields, recordEntries, receive_delivery content]
    exact bind_congr fun v => receiveFields_fieldDeliveries (fields.insert name v) entries

end

end Datum

end TextTemplate
