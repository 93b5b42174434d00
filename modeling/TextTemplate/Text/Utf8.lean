/-!
Texts as bytes. Decoding marks every malformed part once: a longest start of a character that its
next byte does not continue.
-/
namespace TextTemplate.Text

/-- A character of which some bytes are still owed; the next one lies between `low` and `high`. -/
structure OpenChar where
  owed : Nat
  low : Nat
  high : Nat
  value : Nat

inductive LeadByte where
  | whole (c : Char)
  | opening (char : OpenChar)
  | malformed

def leadByte (b : UInt8) : LeadByte :=
  let n := b.toNat
  if n < 0x80 then .whole (Char.ofNat n)
  else if n < 0xC2 then .malformed
  else if n < 0xE0 then .opening ⟨1, 0x80, 0xBF, n - 0xC0⟩
  else if n < 0xF0 then
    .opening ⟨2, if n = 0xE0 then 0xA0 else 0x80, if n = 0xED then 0x9F else 0xBF, n - 0xE0⟩
  else if n < 0xF5 then
    .opening ⟨3, if n = 0xF0 then 0x90 else 0x80, if n = 0xF4 then 0x8F else 0xBF, n - 0xF0⟩
  else .malformed

/-- The characters of a byte sequence, with `none` for each malformed part. -/
def decodeFrom (current : Option OpenChar) : List UInt8 → List (Option Char)
  | [] => if current.isSome then [none] else []
  | b :: bs =>
    let fresh :=
      match leadByte b with
      | .whole c => some c :: decodeFrom none bs
      | .opening char => decodeFrom (some char) bs
      | .malformed => none :: decodeFrom none bs
    match current with
    | none => fresh
    | some char =>
      if char.low ≤ b.toNat ∧ b.toNat ≤ char.high then
        let value := char.value * 64 + (b.toNat - 0x80)
        if char.owed ≤ 1 then some (Char.ofNat value) :: decodeFrom none bs
        else decodeFrom (some ⟨char.owed - 1, 0x80, 0xBF, value⟩) bs
      else none :: fresh

def decode (bytes : List UInt8) : List (Option Char) :=
  decodeFrom none bytes

/-- The text with a replacement character for each malformed part. -/
def decodeLossy (bytes : List UInt8) : String :=
  String.ofList ((decode bytes).map (·.getD '\uFFFD'))

def decode? (bytes : List UInt8) : Option String :=
  ((decode bytes).mapM id).map String.ofList

def bytes (s : String) : List UInt8 :=
  s.toUTF8.data.toList

end TextTemplate.Text
