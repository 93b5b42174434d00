import TextTemplate.Json.Reading
import TextTemplate.Proofs.Decimal.Digits
import TextTemplate.Proofs.Results

/-!
The grammar of JSON: which texts are documents, and what each of them stands for. Numbers must be within
the range of doubles, and arrays and objects enclose one another to a limit.
-/
namespace TextTemplate.Json

def Blank (cs : List Char) : Prop :=
  ∀ c ∈ cs, isBlank c = true

theorem blank_nil : Blank [] :=
  fun _ member => absurd member List.not_mem_nil

/-- Four digits that stand for a number to the base 16. -/
structure HexNumber (digits : List Char) (n : Nat) : Prop where
  four : digits.length = 4
  number : hexNumber? digits = some n

/-- Letters behind a backslash, and the characters they stand for. -/
def shortEscapes : List (Char × Char) :=
  [('"', '"'), ('\\', '\\'), ('/', '/'), ('b', '\x08'), ('f', '\x0c'), ('n', '\n'), ('r', '\r'), ('t', '\t')]

/-- What stands behind a backslash: a letter, the number of a character, or those of both halves of a pair of
surrogates. -/
inductive Escape : List Char → Char → Prop
  | short {letter c : Char} (found : (letter, c) ∈ shortEscapes) : Escape [letter] c
  | single {digits : List Char} {n : Nat} (number : HexNumber digits n) (low : isLowSurrogate n = false)
    (high : isHighSurrogate n = false) : Escape ('u' :: digits) (Char.ofNat n)
  | pair {digits digits' : List Char} {n n' : Nat} (number : HexNumber digits n) (low : isLowSurrogate n = false)
    (high : isHighSurrogate n = true) (number' : HexNumber digits' n') (low' : isLowSurrogate n' = true) :
    Escape ('u' :: digits ++ '\\' :: 'u' :: digits') (Char.ofNat (0x10000 + (n - 0xD800) * 0x400 + (n' - 0xDC00)))

/-- What stands between the quotes of a string. -/
inductive StringBody : List Char → List Char → Prop
  | nil : StringBody [] []
  | plain {c : Char} {cs text : List Char} (quote : c ≠ '"') (backslash : c ≠ '\\') (visible : ¬c.toNat < 0x20)
    (rest : StringBody cs text) : StringBody (c :: cs) (c :: text)
  | escape {w cs text : List Char} {c : Char} (escaped : Escape w c) (rest : StringBody cs text) :
    StringBody ('\\' :: (w ++ cs)) (c :: text)

/-- Digits without a zero in front. -/
inductive Whole : List Char → Prop
  | zero : Whole ['0']
  | digits {first : Char} {rest : List Char} (nonzero : first ≠ '0') (each : ∀ d ∈ first :: rest, d.isDigit = true) :
    Whole (first :: rest)

/-- A fraction with its digits, or none. -/
inductive Fraction : List Char → List Char → Prop
  | none : Fraction [] []
  | point {digits : List Char} (some : digits ≠ []) (each : ∀ d ∈ digits, d.isDigit = true) :
    Fraction ('.' :: digits) digits

/-- An exponent with its power of ten, or none. -/
inductive Exponent : List Char → Option Int → Prop
  | none : Exponent [] none
  | power {e : Char} {sign digits : List Char} (letter : e = 'e' ∨ e = 'E') (signed : sign ∈ [[], ['+'], ['-']])
    (some : digits ≠ []) (each : ∀ d ∈ digits, d.isDigit = true) :
    Exponent (e :: (sign ++ digits)) (.some (if sign = ['-'] then -(natOfDigits digits : Int) else natOfDigits digits))

/-- The number with the given parts. It stays whole if it has neither fraction nor exponent and 64 bits hold it, and
is the double next to it otherwise. -/
def numberValue? (negative : Bool) (whole fraction : List Char) (power : Option Int) : Option Json :=
  (if fraction.isEmpty && power.isNone then wholeNumber? negative (natOfDigits whole) else none).or
    ((Stepwise.read? negative (Stepwise.ofDigits whole fraction (power.getD 0))).map .real)

/-- A number behind its sign. -/
inductive Number (negative : Bool) : List Char → Json → Prop
  | parts {whole fraction exponent digits : List Char} {power : Option Int} {json : Json} (whole' : Whole whole)
    (fraction' : Fraction fraction digits) (exponent' : Exponent exponent power)
    (value : numberValue? negative whole digits power = some json) :
    Number negative (whole ++ fraction ++ exponent) json

/-- Words that are values. -/
def words : List (String × Json) :=
  [("null", .null), ("true", .bool true), ("false", .bool false)]

/-- What a part of a document stands for. -/
inductive Part where
  | value (json : Json)
  | items (items : List Json)
  | member (member : String × Json)
  | members (members : List (String × Json))

/-- The texts of values, without blanks around them, of what stands between the brackets of arrays and the braces of
objects, and of members, where `levels` arrays and objects may enclose one another. -/
inductive Denotes : Nat → List Char → Part → Prop
  | word {levels : Nat} {word : String} {json : Json} (found : (word, json) ∈ words) :
    Denotes levels word.toList (.value json)
  | number {levels : Nat} {cs : List Char} {json : Json} (number : Number false cs json) :
    Denotes levels cs (.value json)
  | negative {levels : Nat} {cs : List Char} {json : Json} (number : Number true cs json) :
    Denotes levels ('-' :: cs) (.value json)
  | string {levels : Nat} {cs text : List Char} (body : StringBody cs text) :
    Denotes levels ('"' :: (cs ++ ['"'])) (.value (.str (String.ofList text)))
  | array {levels : Nat} {cs : List Char} {items : List Json} (inside : Denotes levels cs (.items items)) :
    Denotes (levels + 1) ('[' :: (cs ++ [']'])) (.value (.arr items))
  | object {levels : Nat} {cs : List Char} {members : List (String × Json)}
    (inside : Denotes levels cs (.members members)) :
    Denotes (levels + 1) ('\x7b' :: (cs ++ ['\x7d'])) (.value (.obj members))
  | noItem {levels : Nat} {blanks : List Char} (blank : Blank blanks) : Denotes levels blanks (.items [])
  | lastItem {levels : Nat} {front cs back : List Char} {json : Json} (before : Blank front) (after : Blank back)
    (item : Denotes levels cs (.value json)) : Denotes levels (front ++ cs ++ back) (.items [json])
  | moreItems {levels : Nat} {front cs back rest : List Char} {json : Json} {items : List Json} (before : Blank front)
    (after : Blank back) (item : Denotes levels cs (.value json)) (some : items ≠ [])
    (others : Denotes levels rest (.items items)) :
    Denotes levels (front ++ cs ++ back ++ ',' :: rest) (.items (json :: items))
  | member {levels : Nat} {name text middle front cs : List Char} {json : Json} (named : StringBody name text)
    (between : Blank middle) (before : Blank front) (content : Denotes levels cs (.value json)) :
    Denotes levels ('"' :: (name ++ '"' :: (middle ++ ':' :: (front ++ cs)))) (.member (String.ofList text, json))
  | noMember {levels : Nat} {blanks : List Char} (blank : Blank blanks) : Denotes levels blanks (.members [])
  | lastMember {levels : Nat} {front cs back : List Char} {member : String × Json} (before : Blank front)
    (after : Blank back) (first : Denotes levels cs (.member member)) :
    Denotes levels (front ++ cs ++ back) (.members [member])
  | moreMembers {levels : Nat} {front cs back rest : List Char} {member : String × Json}
    {members : List (String × Json)} (before : Blank front) (after : Blank back)
    (first : Denotes levels cs (.member member)) (some : members ≠ [])
    (others : Denotes levels rest (.members members)) :
    Denotes levels (front ++ cs ++ back ++ ',' :: rest) (.members (member :: members))

/-- The text of a document, which may have blanks around its value. -/
inductive IsText : String → Json → Prop
  | spaced {front cs back : List Char} {text : String} {json : Json} (whole : text.toList = front ++ cs ++ back)
    (before : Blank front) (after : Blank back) (value : Denotes maxLevels cs (.value json)) : IsText text json

end TextTemplate.Json
