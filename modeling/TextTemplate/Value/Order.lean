import TextTemplate.Value.Basic

/-!
Equality and order of values. Numbers compare with numbers, texts with texts; absent values are
equal and never ordered; maps are equal whatever the order of their entries.
-/
namespace TextTemplate.Value

/-- Equality of two numbers, exact between integers. -/
def sameNumber (a b : Value) : Bool :=
  match a.asInt?, b.asInt? with
  | some i, some j => i == j
  | _, _ =>
    match a.asFloat?, b.asFloat? with
    | some x, some y => x.sameNumber y
    | _, _ => false

mutual

def same : Value → Value → Bool
  | .undefined, b | .none, b => b.isAbsent
  | .bool a, .bool b => a == b
  | .str a, .str b => a == b
  | .seq as, .seq bs => sameItems as bs
  | .map as, .map bs => as.length == bs.length && sameEntries as bs
  | a, b => sameNumber a b

def sameItems : List Value → List Value → Bool
  | [], [] => true
  | a :: as, b :: bs => same a b && sameItems as bs
  | _, _ => false

/-- Whether every entry is found in the other map. -/
def sameEntries : List (String × Value) → List (String × Value) → Bool
  | [], _ => true
  | (name, a) :: as, bs =>
    (match bs.lookup name with
      | some b => same a b
      | Option.none => false) && sameEntries as bs

end

/-- Order of two numbers, exact between integers, or of two texts. -/
def compare? (a b : Value) : Option Ordering :=
  match a, b with
  | .str s, .str t => some (compare s t)
  | .int i, .int j => some (compare i j)
  | a, b =>
    match a.asFloat?, b.asFloat? with
    | some x, some y => x.compare? y
    | _, _ => Option.none

end TextTemplate.Value
