/-!
The rotation of the ASCII letters by half the alphabet.
-/
namespace TextTemplate.Text

def rotateIn (first c : Char) : Char :=
  Char.ofNat (first.toNat + (c.toNat - first.toNat + 13) % 26)

def rotateChar (c : Char) : Char :=
  if c.isLower then rotateIn 'a' c
  else if c.isUpper then rotateIn 'A' c
  else c

def rot13 (cs : List Char) : List Char :=
  cs.map rotateChar

end TextTemplate.Text
