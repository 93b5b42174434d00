import TextTemplate.Value.Datum

/-!
Data that are handed over part by part. A value is built up while the parts come in: the items of a
sequence one behind the other, and for a map a key that waits for its value. Whatever cannot be taken
ends the whole delivery.
-/
namespace TextTemplate

/-- What is handed over in the course of a map. -/
inductive MapRole where
  | key
  | value
  deriving DecidableEq, Repr

inductive Delivery where
  | nothing
  | unit
  | unitStruct
  | bool (b : Bool)
  /-- A number of at most 64 bits with a sign. -/
  | signed (i : Int)
  /-- A number of at most 64 bits without a sign. -/
  | unsigned (n : Nat)
  | real (x : Binary64)
  | char (c : Char)
  | text (s : String)
  | bytes (bytes : List UInt8)
  /-- An option that is not empty. -/
  | present (content : Delivery)
  | newtypeStruct (content : Delivery)
  | unitVariant (variant : String)
  | newtypeVariant (variant : String) (content : Delivery)
  | seq (items : List Delivery)
  | tuple (items : List Delivery)
  | tupleStruct (items : List Delivery)
  | tupleVariant (variant : String) (items : List Delivery)
  /-- Keys and values in the order in which they come. -/
  | map (calls : List (MapRole × Delivery))
  | struct (fields : List (String × Delivery))
  | structVariant (variant : String) (fields : List (String × Delivery))
  /-- Data that cannot be handed over. -/
  | refused (message : String)
  deriving Inhabited

/-- The entries of a map so far, and the key whose value has not come yet. -/
structure OpenMap where
  entries : Fields Value := []
  pending : Option String := none

namespace Delivery

/-- The variant of a choice, as a map from its name. -/
def singleEntry (variant : String) (v : Value) : Value :=
  .map (Fields.insert [] variant v)

mutual

def receive : Delivery → Except Fault Value
  | .nothing | .unit | .unitStruct => .ok .none
  | .bool b => .ok (.bool b)
  | .signed i => .ok (.int i)
  | .unsigned n => .ok (.ofUnsigned n)
  | .real x => .ok (.float x)
  | .char c => .ok (.str (String.singleton c))
  | .text s => .ok (.str s)
  | .bytes bs => .ok (.str (Text.decodeLossy bs))
  | .present content | .newtypeStruct content => receive content
  | .unitVariant variant => .ok (.str variant)
  | .newtypeVariant variant content => do
    let v ← receive content
    .ok (singleEntry variant v)
  | .seq items | .tuple items | .tupleStruct items => do
    let vs ← receiveItems [] items
    .ok (.seq vs)
  | .tupleVariant variant items => do
    let vs ← receiveItems [] items
    .ok (singleEntry variant (.seq vs))
  | .map calls => do
    let taken ← receiveCalls {} calls
    .ok (.map taken.entries)
  | .struct fields => do
    let taken ← receiveFields [] fields
    .ok (.map taken)
  | .structVariant variant fields => do
    let taken ← receiveFields [] fields
    .ok (singleEntry variant (.map taken))
  | .refused message => .error { problem := .unconvertible message }

def receiveItems (taken : List Value) : List Delivery → Except Fault (List Value)
  | [] => .ok taken
  | item :: items => do
    let v ← receive item
    receiveItems (taken ++ [v]) items

/-- A value without a key in front of it is not looked at. -/
def receiveCalls (taken : OpenMap) : List (MapRole × Delivery) → Except Fault OpenMap
  | [] => .ok taken
  | (.key, content) :: calls => do
    let key ← receive content
    let name ← Datum.keyText key
    receiveCalls { taken with pending := some name } calls
  | (.value, content) :: calls =>
    match taken.pending with
    | none => receiveCalls taken calls
    | some name => do
      let v ← receive content
      receiveCalls ⟨taken.entries.insert name v, none⟩ calls

def receiveFields (taken : Fields Value) : List (String × Delivery) → Except Fault (Fields Value)
  | [] => .ok taken
  | (name, content) :: fields => do
    let v ← receive content
    receiveFields (taken.insert name v) fields

end

end Delivery

/-- The value that is delivered, undefined if the delivery fails. -/
def Value.ofDelivery (delivery : Delivery) : Value :=
  match delivery.receive with
  | .ok v => v
  | .error _ => .undefined

end TextTemplate
