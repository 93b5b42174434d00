import TextTemplate.Proofs.Code.Simulation

/-!
Undefined values and none are told apart by printed containers only. Two runs of the code of an
expression, with variables that differ in which absent values are undefined and which are none, fail
with the same problem or go on with values that differ in that way again.
-/
namespace TextTemplate

namespace Value

mutual

/-- The right value has none where the left one has something undefined, at any depth, and otherwise
they are the same. If `mixed`, it may also be undefined where the left one has none. -/
inductive UpToNone (mixed : Bool) : Value → Value → Prop
  | undefined : UpToNone mixed .undefined .undefined
  | none : UpToNone mixed .none .none
  | filled : UpToNone mixed .undefined .none
  | emptied (both : mixed = true) : UpToNone mixed .none .undefined
  | bool (b : Bool) : UpToNone mixed (.bool b) (.bool b)
  | int (i : Int) : UpToNone mixed (.int i) (.int i)
  | float (x : Binary64) : UpToNone mixed (.float x) (.float x)
  | str (s : String) : UpToNone mixed (.str s) (.str s)
  | seq {as bs : List Value} (items : ItemsUpToNone mixed as bs) : UpToNone mixed (.seq as) (.seq bs)
  | map {as bs : List (String × Value)} (entries : EntriesUpToNone mixed as bs) :
      UpToNone mixed (.map as) (.map bs)

inductive ItemsUpToNone (mixed : Bool) : List Value → List Value → Prop
  | nil : ItemsUpToNone mixed [] []
  | cons {a b : Value} {as bs : List Value} (first : UpToNone mixed a b) (rest : ItemsUpToNone mixed as bs) :
      ItemsUpToNone mixed (a :: as) (b :: bs)

/-- The names of the entries and their order are the same. -/
inductive EntriesUpToNone (mixed : Bool) : List (String × Value) → List (String × Value) → Prop
  | nil : EntriesUpToNone mixed [] []
  | cons (name : String) {a b : Value} {as bs : List (String × Value)} (first : UpToNone mixed a b)
      (rest : EntriesUpToNone mixed as bs) : EntriesUpToNone mixed ((name, a) :: as) ((name, b) :: bs)

end

variable {mixed : Bool} {a a' b b' : Value} {as as' : List Value} {entries entries' : List (String × Value)}

mutual

theorem UpToNone.refl : (a : Value) → UpToNone mixed a a
  | .undefined => .undefined
  | .none => .none
  | .bool b => .bool b
  | .int i => .int i
  | .float x => .float x
  | .str s => .str s
  | .seq items => .seq (ItemsUpToNone.refl items)
  | .map entries => .map (EntriesUpToNone.refl entries)

theorem ItemsUpToNone.refl : (as : List Value) → ItemsUpToNone mixed as as
  | [] => .nil
  | a :: as => .cons (UpToNone.refl a) (ItemsUpToNone.refl as)

theorem EntriesUpToNone.refl : (entries : List (String × Value)) → EntriesUpToNone mixed entries entries
  | [] => .nil
  | (name, a) :: rest => .cons name (UpToNone.refl a) (EntriesUpToNone.refl rest)

end

theorem ItemsUpToNone.length_eq (alike : ItemsUpToNone mixed as as') : as.length = as'.length := by
  induction as generalizing as' with
  | nil =>
    cases alike
    rfl
  | cons a as ih =>
    cases alike with
    | cons first rest => rw [List.length_cons, List.length_cons, ih rest]

theorem EntriesUpToNone.length_eq (alike : EntriesUpToNone mixed entries entries') :
    entries.length = entries'.length := by
  induction entries generalizing entries' with
  | nil =>
    cases alike
    rfl
  | cons entry entries ih =>
    cases alike with
    | cons name first rest => rw [List.length_cons, List.length_cons, ih rest]

/-- The items at an index, undefined behind the last one. -/
theorem ItemsUpToNone.item (alike : ItemsUpToNone mixed as as') (i : Nat) :
    UpToNone mixed (as[i]?.getD .undefined) (as'[i]?.getD .undefined) := by
  induction as generalizing as' i with
  | nil =>
    cases alike
    exact .undefined
  | cons a as ih =>
    cases alike with
    | cons first rest =>
      cases i with
      | zero => exact first
      | succ i => simpa using ih rest i

/-- The entries of a name: there is none in both maps, or both have one. -/
theorem EntriesUpToNone.lookup (alike : EntriesUpToNone mixed entries entries') (name : String) :
    (entries.lookup name = Option.none ∧ entries'.lookup name = Option.none) ∨
      ∃ b b', entries.lookup name = some b ∧ entries'.lookup name = some b' ∧ UpToNone mixed b b' := by
  induction entries generalizing entries' with
  | nil =>
    cases alike
    exact .inl ⟨rfl, rfl⟩
  | cons entry entries ih =>
    cases alike with
    | cons key first rest =>
      simp only [lookup_cons_eq_if]
      by_cases same : name = key
      · simp only [same, if_true]
        exact .inr ⟨_, _, rfl, rfl, first⟩
      · simp only [same, if_false]
        exact ih rest

namespace UpToNone

theorem isAbsent_eq (alike : UpToNone mixed a a') : a.isAbsent = a'.isAbsent := by
  cases alike <;> rfl

theorem isTrue_eq (alike : UpToNone mixed a a') : a.isTrue = a'.isTrue := by
  cases alike with
  | seq items => cases items <;> rfl
  | map entries => cases entries <;> rfl
  | _ => rfl

theorem kind_eq (alike : UpToNone mixed a a') (present : a.isAbsent = false) : a.kind = a'.kind := by
  cases alike with
  | undefined | none | filled | emptied => cases present
  | _ => rfl

theorem compare?_eq (left : UpToNone mixed a a') (right : UpToNone mixed b b') : a.compare? b = a'.compare? b' := by
  cases left <;> cases right <;> rfl

theorem member (alike : UpToNone mixed a a') (key : String) : UpToNone mixed (a.member key) (a'.member key) := by
  cases alike with
  | seq items =>
    simp only [Value.member]
    cases readCount? key with
    | none => exact .undefined
    | some i => exact items.item i
  | map entries =>
    simp only [Value.member, Fields.get?]
    obtain ⟨left, right⟩ | ⟨b, b', left, right, found⟩ := entries.lookup key
    · rw [left, right]
      exact .undefined
    · rw [left, right]
      exact found
  | _ => exact .undefined

/-- An iteration goes over as many items, or over neither value. -/
theorem items?_eq (alike : UpToNone mixed a a') :
    a.items?.map List.length = a'.items?.map List.length ∧ (a.items? = Option.none → a.kind = a'.kind) := by
  cases alike with
  | seq items => exact ⟨congrArg some items.length_eq, fun _ => rfl⟩
  | map entries =>
    refine ⟨congrArg some ?_, fun _ => rfl⟩
    simp only [Fields.values, List.length_map, entries.length_eq]
  | undefined | none | filled | emptied => exact ⟨rfl, fun never => by cases never⟩
  | _ => exact ⟨rfl, fun _ => rfl⟩

/-- Only containers show whether something in them is undefined. -/
theorem display_eq (alike : UpToNone mixed a a') (sequence : a.kind ≠ .seq) (map : a.kind ≠ .map) :
    a.display = a'.display := by
  cases alike with
  | seq items => exact absurd rfl sequence
  | map entries => exact absurd rfl map
  | _ => rfl

theorem fallback (alike : UpToNone mixed a a') (replacement : Option Value) :
    UpToNone mixed (Filter.fallback a replacement) (Filter.fallback a' replacement) := by
  cases replacement with
  | none => exact alike
  | some other =>
    simp only [Filter.fallback, alike.isAbsent_eq]
    split
    · exact .refl other
    · exact alike

end UpToNone

mutual

theorem UpToNone.same_eq : {a a' b b' : Value} → UpToNone mixed a a' → UpToNone mixed b b' → a.same b = a'.same b'
  | _, _, _, _, .undefined, right => by simp only [same, right.isAbsent_eq]
  | _, _, _, _, .none, right => by simp only [same, right.isAbsent_eq]
  | _, _, _, _, .filled, right => by simp only [same, right.isAbsent_eq]
  | _, _, _, _, .emptied _, right => by simp only [same, right.isAbsent_eq]
  | _, _, _, _, .bool b, right => by cases right <;> rfl
  | _, _, _, _, .int i, right => by cases right <;> rfl
  | _, _, _, _, .float x, right => by cases right <;> rfl
  | _, _, _, _, .str s, right => by cases right <;> rfl
  | _, _, _, _, .seq items, right => by
    cases right with
    | seq others => simp only [same, items.sameItems_eq others]
    | _ => rfl
  | _, _, _, _, .map entries, right => by
    cases right with
    | map others => simp only [same, entries.length_eq, others.length_eq, entries.sameEntries_eq others]
    | _ => rfl

theorem ItemsUpToNone.sameItems_eq : {as as' bs bs' : List Value} → ItemsUpToNone mixed as as' →
    ItemsUpToNone mixed bs bs' → sameItems as bs = sameItems as' bs'
  | _, _, _, _, .nil, .nil => rfl
  | _, _, _, _, .nil, .cons _ _ => rfl
  | _, _, _, _, .cons _ _, .nil => rfl
  | _, _, _, _, .cons first rest, .cons other others => by
    simp only [sameItems, first.same_eq other, rest.sameItems_eq others]

theorem EntriesUpToNone.sameEntries_eq : {as as' bs bs' : List (String × Value)} → EntriesUpToNone mixed as as' →
    EntriesUpToNone mixed bs bs' → sameEntries as bs = sameEntries as' bs'
  | _, _, _, _, .nil, _ => rfl
  | _, _, _, _, .cons name first rest, others => by
    simp only [sameEntries, rest.sameEntries_eq others]
    obtain ⟨left, right⟩ | ⟨b, b', left, right, found⟩ := others.lookup name
    · rw [left, right]
    · rw [left, right]
      simp only [first.same_eq found]

end

/-- Comparisons of values that are alike fail with the same problem or have the same answer. -/
theorem UpToNone.tested_eq (left : UpToNone mixed a a') (right : UpToNone mixed b b') (test : Ordering → Bool) :
    tested test a b = tested test a' b' := by
  unfold tested Machine.ordering
  rw [left.isAbsent_eq, right.isAbsent_eq, left.compare?_eq right]
  cases absent : a'.isAbsent || b'.isAbsent with
  | true => rfl
  | false =>
    rw [← left.isAbsent_eq, ← right.isAbsent_eq, Bool.or_eq_false_iff] at absent
    rw [left.kind_eq absent.1, right.kind_eq absent.2]

end Value

/-- Both fail with one problem, or both have values that are alike. -/
inductive ResultsUpToNone (mixed : Bool) : Except Problem Value → Except Problem Value → Prop
  | failed (problem : Problem) : ResultsUpToNone mixed (.error problem) (.error problem)
  | value {v v' : Value} (alike : v.UpToNone mixed v') : ResultsUpToNone mixed (.ok v) (.ok v')

variable {mixed : Bool}

theorem ResultsUpToNone.bind {x x' : Except Problem Value} {f f' : Value → Except Problem Value}
    (first : ResultsUpToNone mixed x x')
    (rest : ∀ {v v' : Value}, v.UpToNone mixed v' → ResultsUpToNone mixed (f v) (f' v')) :
    ResultsUpToNone mixed (x >>= f) (x' >>= f') := by
  cases first with
  | failed problem => exact .failed problem
  | value alike => exact rest alike

theorem ResultsUpToNone.tested {a a' b b' : Value} (left : a.UpToNone mixed a') (right : b.UpToNone mixed b')
    (test : Ordering → Bool) : ResultsUpToNone mixed (Value.tested test a b) (Value.tested test a' b') := by
  rw [left.tested_eq right]
  cases answers : Value.tested test a' b' with
  | error problem => exact .failed problem
  | ok v => exact .value (.refl v)

namespace Expr

/-- Whether an expression is made of variables, path segments, constants, operators and the filter that
replaces absent values. -/
def isPlain : Expr → Bool
  | .var .. | .const .. => true
  | .member of _ _ => of.isPlain
  | .not operand _ => operand.isPlain
  | .binary _ left right _ => left.isPlain && right.isPlain
  | .filter name operand _ _ => name == defaultFilter && operand.isPlain

/-- Plain expressions have one problem or values that are alike if the variables are. -/
theorem evaluate_upToNone {e : Expr} (plain : e.isPlain = true) (env env' : Environment) {vars vars' : Value}
    (alike : vars.UpToNone mixed vars') :
    ResultsUpToNone mixed (e.evaluate env vars) (e.evaluate env' vars') := by
  induction e with
  | var name span => exact .value (alike.member name)
  | const value span => exact .value (.refl value)
  | member of name span ih => exact (ih plain).bind fun found => .value (found.member name)
  | not operand span ih =>
    refine (ih plain).bind fun found => ?_
    rw [found.isTrue_eq]
    exact .value (.refl _)
  | filter name operand argument span ih =>
    obtain ⟨reserved, plain⟩ := Bool.and_eq_true_iff.mp plain
    refine (ih plain).bind fun found => ?_
    simp only [eq_of_beq reserved, if_true]
    exact .value (found.fallback _)
  | binary op left right span ihl ihr =>
    obtain ⟨plainLeft, plainRight⟩ := Bool.and_eq_true_iff.mp plain
    have first := ihl plainLeft
    have second := ihr plainRight
    cases op with
    | eq =>
      refine first.bind fun a => second.bind fun b => ?_
      rw [a.same_eq b]
      exact .value (.refl _)
    | ne =>
      refine first.bind fun a => second.bind fun b => ?_
      rw [a.same_eq b]
      exact .value (.refl _)
    | lt => exact first.bind fun a => second.bind fun b => .tested a b _
    | lte => exact first.bind fun a => second.bind fun b => .tested a b _
    | gt => exact first.bind fun a => second.bind fun b => .tested a b _
    | gte => exact first.bind fun a => second.bind fun b => .tested a b _
    | and =>
      refine first.bind fun found => ?_
      rw [found.isTrue_eq]
      split
      · exact second
      · exact .value found
    | or =>
      refine first.bind fun found => ?_
      rw [found.isTrue_eq]
      split
      · exact .value found
      · exact second

end Expr

namespace Machine

/-- Undefined and none are interchangeable: two runs of the code of a plain expression, where the
variables differ in what is undefined and what is none, both fail with the same problem or both go on
behind the code, with values on the stack that differ in the same way. A condition then takes the same
branch, an iteration goes over as many items or fails alike, and a value that is no container is
written as the same text. -/
theorem run_upToNone {scene scene' : Scene} {expr : Expr} {pc pc' : Nat} (plain : expr.isPlain = true)
    (alike : scene.vars.UpToNone mixed scene'.vars) (holds : scene.template.listing.Holds pc expr.code)
    (holds' : scene'.template.listing.Holds pc' expr.code) (nested nested' : Nested) (stack stack' : List Value)
    (sink sink' : Sink) :
    (∃ failure failure' : Failure, failure.Alike failure' ∧
      run scene nested pc stack sink = ⟨sink, .error failure⟩ ∧
      run scene' nested' pc' stack' sink' = ⟨sink', .error failure'⟩) ∨
    ∃ v v' : Value, v.UpToNone mixed v' ∧
      run scene nested pc stack sink = run scene nested (pc + expr.code.length) (v :: stack) sink ∧
      run scene' nested' pc' stack' sink' = run scene' nested' (pc' + expr.code.length) (v' :: stack') sink' ∧
      v.isTrue = v'.isTrue ∧
      v.items?.map List.length = v'.items?.map List.length ∧ (v.items? = none → v.kind = v'.kind) ∧
      (v.kind ≠ .seq → v.kind ≠ .map → v.display = v'.display) := by
  have left : Computes scene nested pc stack sink _ (· :: stack) _ := expr_computes expr holds
  have right : Computes scene' nested' pc' stack' sink' _ (· :: stack') _ := expr_computes expr holds'
  have results := Expr.evaluate_upToNone plain scene.env scene'.env alike
  generalize expr.evaluate scene.env scene.vars = result at left results
  generalize expr.evaluate scene'.env scene'.vars = result' at right results
  cases results with
  | failed problem =>
    obtain ⟨failure, same, fails⟩ := left
    obtain ⟨failure', same', fails'⟩ := right
    exact .inl ⟨failure, failure', ⟨same.problem.trans same'.problem.symm, same.causes.trans same'.causes.symm⟩,
      fails, fails'⟩
  | value found =>
    exact .inr ⟨_, _, found, left, right, found.isTrue_eq, found.items?_eq.1, found.items?_eq.2, found.display_eq⟩

/-- A path that leads to nothing and one that leads to none, with a text in the place of both. -/
theorem run_upToNone_default :
    let path : Expr := .member (.var "a" {}) "b" {}
    let expr : Expr := .filter "default" (.binary .or path (.not path {}) {}) (some "x") {}
    let template : Compiled := ⟨"page", "", .ofStatements [.output expr 1]⟩
    let scene (b : Value) : Scene := ⟨{}, template, {}, .map [], .map [("a", .map [("b", b)])]⟩
    let nested : Nested := fun name _ _ sink => sink.write name
    (scene .undefined).vars.UpToNone false (scene .none).vars ∧ template.listing.Holds 0 expr.code ∧
      ∃ v v' : Value, v.UpToNone false v' ∧ v.isTrue = v'.isTrue ∧
        run (scene .undefined) nested 0 [] (.text "") = run (scene .undefined) nested expr.code.length [v] (.text "") ∧
        run (scene .none) nested 0 [] (.text "") = run (scene .none) nested expr.code.length [v'] (.text "") := by
  intro path expr template scene nested
  have alike : (scene .undefined).vars.UpToNone false (scene .none).vars :=
    .map (.cons "a" (.map (.cons "b" .filled .nil)) .nil)
  have holds : template.listing.Holds 0 expr.code :=
    (Listing.holds_append.mp (Listing.holds_ofStatements [.output expr 1])).1
  refine ⟨alike, holds, ?_⟩
  obtain ⟨failure, -, -, fails, -⟩ | ⟨v, v', same, left, right, truth, -⟩ :=
    run_upToNone (by decide) alike holds holds nested nested [] [] (.text "") (.text "")
  · have succeeds : (run (scene .undefined) nested 0 [] (.text "")).result.isOk = true := by decide +kernel
    rw [fails] at succeeds
    cases succeeds
  · rw [Nat.zero_add] at left right
    exact ⟨v, v', same, truth, left, right⟩

end Machine

end TextTemplate
