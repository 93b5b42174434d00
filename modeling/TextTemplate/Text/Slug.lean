import TextTemplate.Text.CaseTable

/-!
Slugs: texts for the path of a web address. Letters and digits are kept in lower case, everything
else between them becomes one hyphen.
-/
namespace TextTemplate.Text

/-- Spellings of other characters with the characters of a slug. -/
def spellings : List (Char × String) := [
  ('\u00a0', "-"), ('\u00a9', "-c-"), ('\u00ae', "-r-"), ('\u00b2', "2"), ('\u00b3', "3"), ('\u00bd', "1-2"),
  ('\u00c6', "ae"), ('\u00c9', "e"), ('\u00d0', "d"), ('\u00dc', "u"), ('\u00de', "th"), ('\u00df', "ss"),
  ('\u00e5', "a"), ('\u00e7', "c"), ('\u00e8', "e"), ('\u00e9', "e"), ('\u00ea', "e"), ('\u00ef', "i"),
  ('\u00f0', "d"), ('\u00f1', "n"), ('\u00f3', "o"), ('\u00f6', "o"), ('\u00f8', "o"), ('\u00fa', "u"),
  ('\u00fc', "u"), ('\u00fd', "y"), ('\u00fe', "th"), ('\u010d', "c"), ('\u0141', "l"), ('\u0152', "oe"),
  ('\u0153', "oe"), ('\u0165', "t"), ('\u0171', "u"), ('\u017a', "z"), ('\u017e', "z"), ('\u0301', ""),
  ('\u0391', "a"), ('\u0392', "b"), ('\u0393', "g"), ('\u03a9', "o"), ('\u03b1', "a"), ('\u03b2', "b"),
  ('\u03b3', "g"), ('\u041f', "p"), ('\u0432', "v"), ('\u0435', "e"), ('\u0438', "i"), ('\u043c', "m"),
  ('\u0440', "r"), ('\u0442', "t"), ('\u200b', "-"), ('\u2013', "-"), ('\u2014', "-"), ('\u201c', "-"),
  ('\u201d', "-"), ('\u2026', "-"), ('\u20ac', "eur"), ('\u2122', "tm"), ('\u2190', "-"), ('\u2192', "-"),
  ('\u221a', "sqrt"), ('\u2248', "-"), ('\u4eac', "jing-"), ('\u5317', "bei-"), ('\u65e5', "ri-"),
  ('\u672c', "ben-"), ('\ue000', "-"), ('\ufb01', "fi"), (Char.ofNat 0x1F600, "grinning-")]

/-- The spelling of a letter, which may be that of its other case. -/
def spelling? (c : Char) : Option String :=
  (c :: (lowerChar c ++ upperChar c)).findSome? fun x => spellings.lookup x

/-- The characters a slug keeps of one character, a hyphen for any other. -/
def slugChar (c : Char) : List Char :=
  if c.toNat < 0x80 then
    if c.isAlphanum then [c.toLower] else ['-']
  else ((spelling? c).map String.toList).getD ['-']

/-- Keeps of each run of hyphens only one, and none at the end. -/
def joinHyphens : List Char → List Char
  | [] => []
  | c :: cs =>
    let rest := joinHyphens cs
    if c = '-' ∧ (rest = [] ∨ rest.head? = some '-') then rest else c :: rest

def slugify (cs : List Char) : List Char :=
  joinHyphens ((cs.flatMap slugChar).dropWhile (· == '-'))

end TextTemplate.Text
