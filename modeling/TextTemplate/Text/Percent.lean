import TextTemplate.Text.Utf8

/-!
Percent encoding of texts in web addresses, which leaves letters, digits and `/ . - _` as they are.
-/
namespace TextTemplate.Text

def isPlainInAddress (b : UInt8) : Bool :=
  let c := Char.ofNat b.toNat
  c.isAlphanum || c == '/' || c == '.' || c == '-' || c == '_'

def hexDigit (n : Nat) : Char :=
  (Nat.digitChar n).toUpper

def percentByte (b : UInt8) : List Char :=
  if isPlainInAddress b then [Char.ofNat b.toNat]
  else ['%', hexDigit (b.toNat / 16), hexDigit (b.toNat % 16)]

def percentEncode (s : String) : String :=
  String.ofList ((bytes s).flatMap percentByte)

end TextTemplate.Text
