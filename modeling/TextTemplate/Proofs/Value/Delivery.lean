import TextTemplate.Proofs.Fields
import TextTemplate.Value.Delivery

/-!
What becomes of data that are handed over part by part. A delivery stands for one value, and it has a
list of faults, one for each part that cannot be taken and for each key that is no scalar. Without
faults the value is built, and else the first fault ends the delivery.
-/
namespace TextTemplate

/-- Scalars have a text that can be the name of an entry. -/
def ValueKind.isScalar : ValueKind → Bool
  | .bool | .number | .string => true
  | .undefined | .none | .seq | .map => false

section Outcomes

variable {ε α β : Type}

/-- What a computation ends with that meets these errors on its way to a result. -/
def outcome (errors : List ε) (a : α) : Except ε α :=
  match errors with
  | [] => .ok a
  | error :: _ => .error error

theorem bind_outcome (errors : List ε) {later : List ε} {a : α} {b : β} {f : α → Except ε β}
    (next : f a = outcome later b) : (outcome errors a >>= f) = outcome (errors ++ later) b := by
  cases errors with
  | nil => exact next
  | cons => rfl

theorem bind_outcome_ok (errors : List ε) (a : α) (f : α → β) :
    (outcome errors a >>= fun a => .ok (f a)) = outcome errors (f a) := by
  cases errors <;> rfl

theorem outcome_eq_ok_iff {errors : List ε} {a b : α} : outcome errors a = .ok b ↔ errors = [] ∧ a = b := by
  cases errors <;> simp [outcome]

theorem outcome_eq_error_iff {errors : List ε} {a : α} {error : ε} :
    outcome errors a = .error error ↔ errors.head? = some error := by
  cases errors <;> simp [outcome]

end Outcomes

namespace Delivery

section Meaning

mutual

/-- The value that a delivery stands for. Items keep their order, and a map has the texts of its keys. -/
def meaning : Delivery → Value
  | .nothing | .unit | .unitStruct => .none
  | .bool b => .bool b
  | .signed i => .int i
  | .unsigned n => .ofUnsigned n
  | .real x => .float x
  | .char c => .str (String.singleton c)
  | .text s | .unitVariant s => .str s
  | .bytes bs => .str (Text.decodeLossy bs)
  | .present content | .newtypeStruct content => meaning content
  | .newtypeVariant variant content => .map [(variant, meaning content)]
  | .seq items | .tuple items | .tupleStruct items => .seq (meanings items)
  | .tupleVariant variant items => .map [(variant, .seq (meanings items))]
  | .map calls => .map (Fields.gathered (callEntries calls))
  | .struct fields => .map (Fields.gathered (fieldEntries fields))
  | .structVariant variant fields => .map [(variant, .map (Fields.gathered (fieldEntries fields)))]
  | .refused _ => .undefined

def meanings : List Delivery → List Value
  | [] => []
  | item :: items => meaning item :: meanings items

/-- Each key with the value behind it. -/
def callEntries : List (MapRole × Delivery) → Fields Value
  | (.key, key) :: (.value, content) :: calls => ((meaning key).display, meaning content) :: callEntries calls
  | _ :: calls => callEntries calls
  | [] => []

def fieldEntries : List (String × Delivery) → Fields Value
  | [] => []
  | (name, content) :: fields => (name, meaning content) :: fieldEntries fields

end

/-- What is wrong with a key: what is wrong inside of it or, if that is nothing, that it is no scalar. -/
def keyFaults (inside : List Fault) (key : Value) : List Fault :=
  if inside.isEmpty && !key.kind.isScalar then [{ problem := .keyNoScalar key.kind }] else inside

mutual

/-- All that is wrong with a delivery, in the order in which its parts come. -/
def faults : Delivery → List Fault
  | .refused message => [{ problem := .unconvertible message }]
  | .present content | .newtypeStruct content | .newtypeVariant _ content => faults content
  | .seq items | .tuple items | .tupleStruct items | .tupleVariant _ items => itemFaults items
  | .map calls => callFaults calls
  | .struct fields | .structVariant _ fields => fieldFaults fields
  | .nothing | .unit | .unitStruct | .bool _ | .signed _ | .unsigned _ | .real _ | .char _ | .text _ | .bytes _
  | .unitVariant _ => []

def itemFaults : List Delivery → List Fault
  | [] => []
  | item :: items => faults item ++ itemFaults items

def callFaults : List (MapRole × Delivery) → List Fault
  | [] => []
  | (.key, key) :: calls => keyFaults (faults key) (meaning key) ++ callFaults calls
  | (.value, content) :: calls => faults content ++ callFaults calls

def fieldFaults : List (String × Delivery) → List Fault
  | [] => []
  | (_, content) :: fields => faults content ++ fieldFaults fields

end

end Meaning

section Parts

/-- What is handed over in the course of a delivery, one after the other. -/
def parts : Delivery → List Delivery
  | .present content | .newtypeStruct content | .newtypeVariant _ content => [content]
  | .seq items | .tuple items | .tupleStruct items | .tupleVariant _ items => items
  | .map calls => calls.map Prod.snd
  | .struct fields | .structVariant _ fields => fields.map Prod.snd
  | .nothing | .unit | .unitStruct | .bool _ | .signed _ | .unsigned _ | .real _ | .char _ | .text _ | .bytes _
  | .unitVariant _ | .refused _ => []

/-- A delivery itself and, at any depth, its parts. -/
inductive Inside (inner : Delivery) : Delivery → Prop
  | itself : Inside inner inner
  | part {part outer : Delivery} (member : part ∈ outer.parts) (inside : Inside inner part) : Inside inner outer

theorem inside_iff {inner outer : Delivery} :
    Inside inner outer ↔ inner = outer ∨ ∃ part ∈ outer.parts, Inside inner part := by
  constructor
  · rintro (_ | ⟨member, inside⟩)
    · exact .inl rfl
    · exact .inr ⟨_, member, inside⟩
  · rintro (rfl | ⟨part, member, inside⟩)
    · exact .itself
    · exact .part member inside

theorem sizeOf_part {part delivery : Delivery} (member : part ∈ delivery.parts) : sizeOf part < sizeOf delivery := by
  have second {α : Type} [SizeOf α] {pairs : List (α × Delivery)} (found : part ∈ pairs.map Prod.snd) :
      sizeOf part < sizeOf pairs := by
    obtain ⟨⟨a, inner⟩, inside, rfl⟩ := List.mem_map.mp found
    have := List.sizeOf_lt_of_mem inside
    rw [Prod.mk.sizeOf_spec] at this
    dsimp only
    omega
  cases delivery with
  | present | newtypeStruct | newtypeVariant =>
    obtain rfl := List.mem_singleton.mp member
    simp only [present.sizeOf_spec, newtypeStruct.sizeOf_spec, newtypeVariant.sizeOf_spec]
    omega
  | seq | tuple | tupleStruct | tupleVariant =>
    rw [parts] at member
    have := List.sizeOf_lt_of_mem member
    simp only [seq.sizeOf_spec, tuple.sizeOf_spec, tupleStruct.sizeOf_spec, tupleVariant.sizeOf_spec]
    omega
  | map | struct | structVariant =>
    have := second member
    simp only [map.sizeOf_spec, struct.sizeOf_spec, structVariant.sizeOf_spec]
    omega
  | _ => cases member

/-- Induction over deliveries: what holds of a delivery if it holds of its parts holds of every delivery. -/
@[elab_as_elim]
theorem induction {motive : Delivery → Prop}
    (step : ∀ delivery : Delivery, (∀ part ∈ delivery.parts, motive part) → motive delivery) (delivery : Delivery) :
    motive delivery :=
  step delivery fun part member =>
    have := sizeOf_part member
    induction step part
termination_by delivery

/-- Every value of a map comes right behind a key. -/
def KeysFirst : List (MapRole × Delivery) → Prop
  | (.key, _) :: (.value, _) :: calls => KeysFirst calls
  | (.key, _) :: calls => KeysFirst calls
  | (.value, _) :: _ => False
  | [] => True

/-- In every map of a delivery the values come right behind keys. -/
def Orderly (delivery : Delivery) : Prop :=
  ∀ calls, Inside (.map calls) delivery → KeysFirst calls

theorem Inside.trans {inner middle outer : Delivery} (first : Inside inner middle) (second : Inside middle outer) :
    Inside inner outer := by
  induction second with
  | itself => exact first
  | part member _ ih => exact .part member ih

theorem Orderly.inside {inner delivery : Delivery} (orderly : delivery.Orderly) (inside : Inside inner delivery) :
    inner.Orderly :=
  fun calls deeper => orderly calls (deeper.trans inside)

theorem Orderly.part {delivery : Delivery} (orderly : delivery.Orderly) {part : Delivery}
    (member : part ∈ delivery.parts) : part.Orderly :=
  orderly.inside (.part member .itself)

theorem Orderly.of_parts {delivery : Delivery} (here : ∀ calls, delivery = .map calls → KeysFirst calls)
    (each : ∀ part ∈ delivery.parts, part.Orderly) : delivery.Orderly := by
  intro calls inside
  obtain same | ⟨part, member, deeper⟩ := inside_iff.mp inside
  · exact here calls same.symm
  · exact each part member calls deeper

theorem Orderly.of_calls {calls : List (MapRole × Delivery)} (ordered : KeysFirst calls)
    (each : ∀ part ∈ calls.map Prod.snd, part.Orderly) : (Delivery.map calls).Orderly :=
  .of_parts (fun _ same => map.inj same ▸ ordered) each

theorem Orderly.of_no_parts {delivery : Delivery} (empty : delivery.parts = []) : delivery.Orderly := by
  refine .of_parts ?_ (empty ▸ nofun)
  rintro calls rfl
  obtain rfl := List.map_eq_nil_iff.mp empty
  exact trivial

end Parts

section Receiving

theorem keyText_eq (key : Value) : Datum.keyText key = outcome (keyFaults [] key) key.display := by
  cases key <;> rfl

theorem bind_keyText (inside : List Fault) (key : Value) :
    (outcome inside key >>= Datum.keyText) = outcome (keyFaults inside key) key.display := by
  cases inside with
  | nil => exact keyText_eq key
  | cons => rfl

theorem receiveItems_eq (items : List Delivery)
    (each : ∀ item ∈ items, item.receive = outcome item.faults item.meaning) (taken : List Value) :
    receiveItems taken items = outcome (itemFaults items) (taken ++ meanings items) := by
  induction items generalizing taken with
  | nil => rw [receiveItems, itemFaults, meanings, List.append_nil, outcome]
  | cons item items ih =>
    obtain ⟨first, rest⟩ := List.forall_mem_cons.mp each
    rw [receiveItems, first, itemFaults, meanings]
    refine bind_outcome _ ?_
    rw [ih rest, List.append_assoc, List.singleton_append]

theorem receiveFields_eq (fields : List (String × Delivery))
    (each : ∀ part ∈ fields.map Prod.snd, part.receive = outcome part.faults part.meaning) (taken : Fields Value) :
    receiveFields taken fields = outcome (fieldFaults fields) (taken.insertAll (fieldEntries fields)) := by
  induction fields generalizing taken with
  | nil => rfl
  | cons field fields ih =>
    obtain ⟨name, content⟩ := field
    obtain ⟨first, rest⟩ := List.forall_mem_cons.mp each
    rw [receiveFields, first, fieldFaults, fieldEntries]
    exact bind_outcome _ (ih rest _)

/-- The calls of a map, one or two at a time: a key with its value, a key that is given up, or the end. -/
theorem receiveCalls_eq : {calls : List (MapRole × Delivery)} →
    (∀ part ∈ calls.map Prod.snd, part.receive = outcome part.faults part.meaning) → KeysFirst calls →
    (taken : OpenMap) → ∃ pending, receiveCalls taken calls =
      outcome (callFaults calls) ⟨taken.entries.insertAll (callEntries calls), pending⟩
  | [], _, _, taken => ⟨taken.pending, by rw [receiveCalls]; rfl⟩
  | (.value, _) :: _, _, ordered, _ => (ordered : False).elim
  | [(.key, key)], each, _, taken => by
    have first := each key List.mem_cons_self
    refine ⟨some key.meaning.display, ?_⟩
    rw [receiveCalls, first, ← bind_assoc, bind_keyText]
    exact bind_outcome _ rfl
  | (.key, key) :: (.key, other) :: calls, each, ordered, taken => by
    obtain ⟨first, rest⟩ := List.forall_mem_cons.mp each
    obtain ⟨pending, later⟩ := receiveCalls_eq rest ordered ⟨taken.entries, some key.meaning.display⟩
    refine ⟨pending, ?_⟩
    rw [receiveCalls, first, ← bind_assoc, bind_keyText]
    exact bind_outcome _ later
  | (.key, key) :: (.value, content) :: calls, each, ordered, taken => by
    obtain ⟨first, second, rest⟩ := (List.forall_mem_cons.mp each).imp_right List.forall_mem_cons.mp
    obtain ⟨pending, later⟩ := receiveCalls_eq rest ordered
      ⟨taken.entries.insert key.meaning.display content.meaning, none⟩
    refine ⟨pending, ?_⟩
    rw [receiveCalls, first, ← bind_assoc, bind_keyText]
    refine bind_outcome _ ?_
    rw [receiveCalls, second]
    exact bind_outcome _ later

theorem receive_eq {delivery : Delivery} (orderly : delivery.Orderly) :
    delivery.receive = outcome delivery.faults delivery.meaning := by
  induction delivery using Delivery.induction with
  | step delivery ih =>
    have each (part : Delivery) (member : part ∈ delivery.parts) : part.receive = outcome part.faults part.meaning :=
      ih part member (orderly.part member)
    cases delivery with
    | present content | newtypeStruct content => exact each content List.mem_cons_self
    | newtypeVariant variant content =>
      rw [receive, each content List.mem_cons_self]
      exact bind_outcome_ok ..
    | seq items | tuple items | tupleStruct items | tupleVariant variant items =>
      rw [receive, receiveItems_eq items each]
      exact bind_outcome_ok ..
    | map calls =>
      obtain ⟨pending, taken⟩ := receiveCalls_eq each (orderly calls .itself) {}
      rw [receive, meaning, ← Fields.insertAll_nil, taken]
      exact bind_outcome_ok ..
    | struct fields | structVariant variant fields =>
      rw [receive, meaning, ← Fields.insertAll_nil, receiveFields_eq fields each]
      exact bind_outcome_ok ..
    | _ => rfl

end Receiving

section Faultless

theorem keyFaults_eq_nil_iff {inside : List Fault} {key : Value} :
    keyFaults inside key = [] ↔ inside = [] ∧ key.kind.isScalar = true := by
  unfold keyFaults
  cases inside <;> cases key.kind.isScalar <;> simp

theorem itemFaults_eq_nil_iff {items : List Delivery} :
    itemFaults items = [] ↔ ∀ item ∈ items, item.faults = [] := by
  induction items with
  | nil => simp [itemFaults]
  | cons item items ih => rw [itemFaults, List.append_eq_nil_iff, ih, List.forall_mem_cons]

theorem fieldFaults_eq_nil_iff {fields : List (String × Delivery)} :
    fieldFaults fields = [] ↔ ∀ part ∈ fields.map Prod.snd, part.faults = [] := by
  induction fields with
  | nil => simp [fieldFaults]
  | cons field fields ih => rw [fieldFaults, List.append_eq_nil_iff, ih, List.map_cons, List.forall_mem_cons]

theorem callFaults_eq_nil_iff {calls : List (MapRole × Delivery)} :
    callFaults calls = [] ↔ (∀ part ∈ calls.map Prod.snd, part.faults = []) ∧
      ∀ key, (.key, key) ∈ calls → key.meaning.kind.isScalar = true := by
  induction calls with
  | nil => simp [callFaults]
  | cons call calls ih =>
    obtain ⟨role, content⟩ := call
    cases role with
    | key =>
      rw [callFaults, List.append_eq_nil_iff, keyFaults_eq_nil_iff, ih]
      simp only [List.map_cons, List.mem_cons, Prod.mk.injEq, true_and, forall_eq_or_imp]
      tauto
    | value =>
      rw [callFaults, List.append_eq_nil_iff, ih]
      simp [and_assoc]

/-- What is needed of a delivery beside its parts. -/
theorem faults_eq_nil_iff_parts {delivery : Delivery} :
    delivery.faults = [] ↔ (∀ message, delivery ≠ .refused message) ∧
      (∀ calls key, delivery = .map calls → (.key, key) ∈ calls → key.meaning.kind.isScalar = true) ∧
      ∀ part ∈ delivery.parts, part.faults = [] := by
  cases delivery with
  | map calls =>
    rw [faults, callFaults_eq_nil_iff]
    constructor
    · rintro ⟨each, keys⟩
      refine ⟨nofun, fun others key same called => ?_, each⟩
      cases same
      exact keys key called
    · rintro ⟨-, keys, each⟩
      exact ⟨each, fun key called => keys calls key rfl called⟩
  | seq | tuple | tupleStruct | tupleVariant => simp [faults, parts, itemFaults_eq_nil_iff]
  | struct | structVariant => simp [faults, parts, fieldFaults_eq_nil_iff]
  | _ => simp [faults, parts]

/-- A delivery has no faults if none of its leaves is refused and each key of a map stands for a scalar. -/
theorem faults_eq_nil_iff {delivery : Delivery} :
    delivery.faults = [] ↔ (∀ message, ¬Inside (.refused message) delivery) ∧
      ∀ calls key, Inside (.map calls) delivery → (.key, key) ∈ calls → key.meaning.kind.isScalar = true := by
  induction delivery using Delivery.induction with
  | step delivery ih =>
    rw [faults_eq_nil_iff_parts]
    constructor
    · rintro ⟨leaf, keys, each⟩
      refine ⟨fun message inside => ?_, fun calls key inside called => ?_⟩
      · obtain same | ⟨part, member, deeper⟩ := inside_iff.mp inside
        · exact leaf message same.symm
        · exact ((ih part member).mp (each part member)).1 message deeper
      · obtain same | ⟨part, member, deeper⟩ := inside_iff.mp inside
        · exact keys calls key same.symm called
        · exact ((ih part member).mp (each part member)).2 calls key deeper called
    · rintro ⟨leaves, keys⟩
      refine ⟨fun message same => leaves message (same ▸ .itself), fun calls key same called => ?_, fun part member => ?_⟩
      · exact keys calls key (same ▸ .itself) called
      · exact (ih part member).mpr ⟨fun message inside => leaves message (.part member inside),
          fun calls key inside called => keys calls key (.part member inside) called⟩

theorem faults_of_inside {inner delivery : Delivery} (inside : Inside inner delivery) (faultless : delivery.faults = []) :
    inner.faults = [] := by
  induction inside with
  | itself => exact faultless
  | part member _ ih => exact ih ((faults_eq_nil_iff_parts.mp faultless).2.2 _ member)

end Faultless

/-- A delivery is received as a whole or not at all. It succeeds exactly if no leaf is refused and every key
of a map is received as a scalar, and then it gives the value it stands for; else the first of its faults,
in the order in which the parts come, is the error, and all of the data are undefined. -/
theorem receive_laws (delivery : Delivery) (orderly : delivery.Orderly) :
    ((∃ v, delivery.receive = .ok v) ↔ (∀ message, ¬Inside (.refused message) delivery) ∧
        ∀ calls key, Inside (.map calls) delivery → (.key, key) ∈ calls →
          ∃ v, key.receive = .ok v ∧ v.kind.isScalar = true) ∧
      (∀ v, delivery.receive = .ok v → v = delivery.meaning ∧ Value.ofDelivery delivery = v) ∧
      ∀ fault, delivery.receive = .error fault →
        delivery.faults.head? = some fault ∧ Value.ofDelivery delivery = .undefined := by
  have received := receive_eq orderly
  refine ⟨?_, fun v taken => ⟨?_, ?_⟩, fun fault failed => ⟨?_, ?_⟩⟩
  · have succeeds : (∃ v, delivery.receive = .ok v) ↔ delivery.faults = [] := by
      simp [received, outcome_eq_ok_iff]
    rw [succeeds]
    constructor
    · intro faultless
      obtain ⟨leaves, keys⟩ := faults_eq_nil_iff.mp faultless
      refine ⟨leaves, fun calls key inside called => ⟨key.meaning, ?_, keys calls key inside called⟩⟩
      have deeper : Inside key delivery := Inside.trans (.part (List.mem_map_of_mem called) .itself) inside
      rw [receive_eq (orderly.inside deeper), faults_of_inside deeper faultless, outcome]
    · rintro ⟨leaves, keys⟩
      refine faults_eq_nil_iff.mpr ⟨leaves, fun calls key inside called => ?_⟩
      obtain ⟨v, taken, scalar⟩ := keys calls key inside called
      have deeper : Inside key delivery := Inside.trans (.part (List.mem_map_of_mem called) .itself) inside
      rw [receive_eq (orderly.inside deeper)] at taken
      obtain ⟨-, rfl⟩ := outcome_eq_ok_iff.mp taken
      exact scalar
  · exact (outcome_eq_ok_iff.mp (received ▸ taken)).2.symm
  · rw [Value.ofDelivery, taken]
  · exact outcome_eq_error_iff.mp (received ▸ failed)
  · rw [Value.ofDelivery, failed]

/-- Keys of two kinds with one text, and a key that is no scalar in front of a value that is refused. -/
theorem receive_laws_keys :
    let met : Delivery := .map [(.key, .signed 1), (.value, .tupleVariant "T" [.bool true, .nothing]),
      (.key, .text "a"), (.value, .unit), (.key, .text "1"), (.value, .newtypeVariant "N" (.char 'c'))]
    let missed : Delivery := .struct [("a", .text "b"), ("c", .map [(.key, .seq []), (.value, .refused "late")])]
    met.Orderly ∧ met.receive = .ok met.meaning ∧
      met.meaning = .map [("1", .map [("N", .str "c")]), ("a", .none)] ∧
      missed.Orderly ∧ missed.receive = .error { problem := .keyNoScalar .seq } ∧
      missed.faults.head? = some { problem := .keyNoScalar .seq } ∧ Value.ofDelivery missed = .undefined := by
  intro met missed
  have leaf {delivery : Delivery} (empty : delivery.parts = []) : delivery.Orderly := .of_no_parts empty
  have ordered : met.Orderly := by
    refine .of_calls trivial ?_
    simp only [List.map_cons, List.map_nil, List.forall_mem_cons]
    refine ⟨leaf rfl, .of_parts nofun ?_, leaf rfl, leaf rfl, leaf rfl, .of_parts nofun ?_, nofun⟩
    · exact List.forall_mem_cons.mpr ⟨leaf rfl, List.forall_mem_singleton.mpr (leaf rfl)⟩
    · exact List.forall_mem_singleton.mpr (leaf rfl)
  have ordered' : missed.Orderly := by
    refine .of_parts nofun ?_
    simp only [missed, parts, List.map_cons, List.map_nil, List.forall_mem_cons]
    refine ⟨leaf rfl, .of_calls trivial ?_, nofun⟩
    exact List.forall_mem_cons.mpr ⟨leaf rfl, List.forall_mem_singleton.mpr (leaf rfl)⟩
  have taken : met.receive = .ok (.map [("1", .map [("N", .str "c")]), ("a", .none)]) := rfl
  have failed : missed.receive = .error { problem := .keyNoScalar .seq } := rfl
  obtain ⟨same, -⟩ := (receive_laws met ordered).2.1 _ taken
  obtain ⟨first, undefined⟩ := (receive_laws missed ordered').2.2 _ failed
  exact ⟨ordered, same ▸ taken, same.symm, ordered', failed, first, undefined⟩

end Delivery

end TextTemplate
