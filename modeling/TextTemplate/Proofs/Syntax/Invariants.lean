import TextTemplate.Proofs.Syntax.Locality
import TextTemplate.Syntax.Parser

/-!
What readers preserve. A reader takes tokens from the front, notes sections and layouts, and fails where it
stands. So what holds of the tokens behind every token that is taken, and of every failure there, holds of a
whole run.
-/
namespace TextTemplate

/-- The problems that are found in the characters of a tag, where the tokens of a source end. -/
def SyntaxProblem.isLexical : SyntaxProblem → Bool
  | .endInsideTag | .unexpectedCharacter | .unendedString | .badEscape | .integerRange => true
  | .unexpected .. | .misplacedKeyword _ | .tooNested | .secondLayout | .repeatedSection _ | .nestedSection
  | .bindingNoPath _ => false

open Parse

/-- What holds of pending tokens, of the spans that a reader sees in them, and of the failures that it ends with. A
failure is one of the reader's own, or the problem that the tokens end with. -/
structure Invariant where
  Holds : Pending → Prop
  OfSpan : Span → Prop
  OfMisread : Misread → Prop
  last {start : Pending} : Holds start → OfSpan start.last
  next {start : Pending} {lexeme : Lexeme} {rest : List Lexeme} :
    Holds start → start.tokens = lexeme :: rest → OfSpan lexeme.span
  behind {start : Pending} {lexeme : Lexeme} {rest : List Lexeme} :
    Holds start → start.tokens = lexeme :: rest → Holds (start.behind lexeme rest)
  noted {start : Pending} : Holds start → ∀ sections hasLayout, Holds { start with sections, hasLayout }
  misread {start : Pending} {problem : SyntaxProblem} :
    Holds start → problem.isLexical = false → OfMisread (start.misread problem)
  ended {start : Pending} {problem : SyntaxProblem} :
    Holds start → start.tokens = [] → start.problem = some problem → OfMisread (start.misread problem)

variable {I : Invariant}

/-- The span of the next token, or of the last one where there is none. -/
theorem Invariant.span {start : Pending} (holds : I.Holds start) : I.OfSpan start.span := by
  unfold Pending.span
  split
  · exact I.next holds (by assumption)
  · exact I.last holds

/-- Where tokens are missing, their own problem comes before that of the reader. -/
theorem Invariant.missing {start : Pending} {other : SyntaxProblem} (holds : I.Holds start) (front : start.tokens = [])
    (own : other.isLexical = false) : I.OfMisread (start.misread (start.problem.getD other)) := by
  cases found : start.problem with
  | none => exact I.misread holds own
  | some problem => exact I.ended holds front found

namespace Parse

variable {α β : Type} {Q : α → Prop} {R : β → Prop} {p : Parse α} {f : α → Parse β} {start : Pending}

/-- An invariant of what is pending behind a value, or of a failure. -/
def Kept (I : Invariant) (Q : α → Prop) : Except Misread (α × Pending) → Prop
  | .ok (a, next) => I.Holds next ∧ Q a
  | .error misread => I.OfMisread misread

/-- A reader that keeps an invariant, with what is known of its value. -/
def Keeps (I : Invariant) (Q : α → Prop) (p : Parse α) : Prop :=
  ∀ ⦃start⦄, I.Holds start → Kept I Q (p.run start)

/-- A reader that keeps an invariant, whatever its value is. -/
abbrev Preserves (I : Invariant) (p : Parse α) : Prop :=
  Keeps I (fun _ => True) p

theorem Kept.bind {x : Except Misread (α × Pending)} {f : α × Pending → Except Misread (β × Pending)}
    (kept : Kept I Q x) (rest : ∀ a next, x = .ok (a, next) → I.Holds next → Q a → Kept I R (f (a, next))) :
    Kept I R (x >>= f) := by
  cases x with
  | error misread => exact kept
  | ok result => exact rest _ _ rfl kept.1 kept.2

theorem Kept.misread {problem : SyntaxProblem} (holds : I.Holds start) (other : problem.isLexical = false) :
    Kept I Q (.error (start.misread problem)) :=
  I.misread holds other

theorem Keeps.bind (keeps : Keeps I Q p) (rest : ∀ a, Q a → Keeps I R (f a)) : Keeps I R (p >>= f) := by
  intro start holds
  rw [run_bind]
  exact (keeps holds).bind fun a next _ behind known => rest a known behind

theorem keeps_pure {a : α} (known : Q a) : Keeps I Q (pure a) := fun _ holds => ⟨holds, known⟩

theorem keeps_fail {problem : SyntaxProblem} (other : problem.isLexical = false) : Keeps I Q (fail problem) :=
  fun _ holds => .misread holds other

theorem keeps_pending : Preserves I pending := fun _ holds => ⟨holds, trivial⟩

theorem keeps_nextSpan : Keeps I I.OfSpan nextSpan := fun _ holds => ⟨holds, I.span holds⟩

theorem keeps_spanFrom (first : Span) : Preserves I (spanFrom first) := fun _ holds => ⟨holds, trivial⟩

theorem keeps_noteLayout : Preserves I noteLayout := fun _ holds => ⟨I.noted holds _ _, trivial⟩

theorem keeps_noteSection (name : String) : Preserves I (noteSection name) :=
  fun _ holds => ⟨I.noted holds _ _, trivial⟩

/-- What a loop does where its tokens end. -/
theorem Kept.ended {a : α} (holds : I.Holds start) (ended : start.tokens = []) (known : Q a) :
    Kept I Q (match start.problem with
      | some problem => .error (start.misread problem)
      | none => .ok (a, start)) := by
  cases found : start.problem with
  | none => exact ⟨holds, known⟩
  | some problem => exact I.ended holds ended found

theorem keeps_peek : Preserves I peek := by
  intro start holds
  rw [run_peek, ahead]
  cases front : start.tokens with
  | cons first rest => exact ⟨holds, trivial⟩
  | nil =>
    cases found : start.problem with
    | none => exact ⟨holds, trivial⟩
    | some problem => exact I.ended holds front found

theorem keeps_take (expected : String) : Keeps I (fun lexeme => I.OfSpan lexeme.span) (take expected) := by
  intro start holds
  cases front : start.tokens with
  | nil =>
    rw [run_take_nil front]
    exact I.missing holds front rfl
  | cons first rest =>
    rw [run_take_cons front]
    exact ⟨I.behind holds front, I.next holds front⟩

theorem keeps_expect (expected : String) (meaning : Token → Option α) :
    Keeps I (fun found => I.OfSpan found.2) (expect expected meaning) := by
  intro start holds
  rw [run_expect]
  refine (keeps_take expected holds).bind fun lexeme next _ behind known => ?_
  dsimp only
  cases meaning lexeme.token with
  | none => exact .misread behind rfl
  | some a => exact ⟨behind, known⟩

theorem keeps_expectToken (expected : String) (token : Token) : Keeps I I.OfSpan (expectToken expected token) :=
  (keeps_expect expected (isToken token)).bind fun _ known => keeps_pure known

theorem keeps_skip (token : Token) : Preserves I (skip token) := by
  refine keeps_peek.bind fun next _ => ?_
  split
  · exact (keeps_take "").bind fun _ _ => keeps_pure trivial
  · exact keeps_pure trivial

theorem size_le_of_run {a : α} {next : Pending} (reads : p.run start = .ok (a, next)) : next.size ≤ start.size := by
  obtain ⟨result, -, -, rfl⟩ := run_eq_ok.mp reads
  exact result.within

theorem size_lt_of_expect {expected : String} {meaning : Token → Option α} {found : α × Span} {next : Pending}
    (reads : (expect expected meaning).run start = .ok (found, next)) : next.size < start.size := by
  obtain ⟨first, rest, front, -, -, rfl⟩ := run_expect_eq_ok.mp reads
  exact Pending.behind_size front

/-- A loop holds spans of a kind if each round does that goes on with fewer tokens. -/
theorem keeps_loop {ι : Type} {K : ι → Prop} {loop : ι → Parse α}
    (round : ∀ {i start}, K i → I.Holds start →
      (∀ {j next}, next.size < start.size → K j → I.Holds next → Kept I Q ((loop j).run next)) →
      Kept I Q ((loop i).run start)) {i : ι} (known : K i) : Keeps I Q (loop i) := by
  intro start holds
  induction size : start.size using Nat.strongRecOn generalizing start i with
  | ind n ih => exact round known holds fun shorter known holds => ih _ (by omega) known holds rfl

theorem keeps_rounds
    (round : ∀ {start}, I.Holds start →
      (∀ {next}, next.size < start.size → I.Holds next → Kept I Q (p.run next)) → Kept I Q (p.run start)) :
    Keeps I Q p := by
  have rounds : True → Keeps I Q p :=
    @keeps_loop I _ Q Unit (fun _ => True) (fun _ => p) (fun _ holds again =>
      round holds fun shorter holds => again (j := ()) shorter trivial holds) ()
  exact rounds trivial

end Parse

namespace Expr

variable {operand inner : Parse Expr} {first : Span} {left : Expr}

/-- An expression that starts where some span of a kind does. -/
def StartsAt (P : Span → Prop) (expr : Expr) : Prop :=
  ∃ span, P span ∧ expr.span.start = span.start

theorem chain_keeps (operator : Operator) (keeps : Keeps I (StartsAt I.OfSpan) operand) (known : I.OfSpan first)
    (starts : StartsAt I.OfSpan left) : Keeps I (StartsAt I.OfSpan) (chain operator operand first left) := by
  refine keeps_loop (fun {left start} starts holds again => ?_) starts
  rw [run_chain]
  split
  · exact .ended holds (by assumption) starts
  · rename_i lexeme rest front
    split
    · exact ⟨holds, starts⟩
    · refine (keeps (I.behind holds front)).bind fun right next reads behind _ => ?_
      have shorter := Nat.lt_of_le_of_lt (size_le_of_run reads) (Pending.behind_size front)
      exact again shorter ⟨first, known, rfl⟩ behind

theorem operation_keeps (operator : Operator) (keeps : Keeps I (StartsAt I.OfSpan) operand) :
    Keeps I (StartsAt I.OfSpan) (operation operator operand) :=
  keeps_nextSpan.bind fun _ known => keeps.bind fun _ starts => chain_keeps operator keeps known starts

theorem negation_keeps (keeps : Keeps I (StartsAt I.OfSpan) operand) :
    Keeps I (StartsAt I.OfSpan) (negation operand) := by
  refine keeps_rounds fun {start} holds again => ?_
  rw [run_negation]
  split
  · split
    · exact I.ended holds (by assumption) (by assumption)
    · exact keeps holds
  · rename_i lexeme rest front
    split
    · exact (again (Pending.behind_size front) (I.behind holds front)).bind fun value next _ behind _ =>
        ⟨behind, lexeme.span, I.next holds front, rfl⟩
    · exact keeps holds

theorem filterStep_keeps : Preserves I filterStep := by
  refine (keeps_expect ..).bind fun _ _ => (keeps_skip _).bind fun _ _ => ?_
  split
  · exact (keeps_expect ..).bind fun _ _ => keeps_pure trivial
  · exact keeps_pure trivial

theorem filters_keeps (known : I.OfSpan first) (starts : StartsAt I.OfSpan left) :
    Keeps I (StartsAt I.OfSpan) (filters first left) := by
  refine keeps_loop (fun {left start} starts holds again => ?_) starts
  rw [run_filters]
  split
  · exact .ended holds (by assumption) starts
  · rename_i lexeme rest front
    split
    · refine (filterStep_keeps (I.behind holds front)).bind fun step next reads behind _ => ?_
      have shorter := Nat.lt_of_le_of_lt (size_le_of_run reads) (Pending.behind_size front)
      exact again shorter ⟨first, known, rfl⟩ behind
    · exact ⟨holds, starts⟩

theorem segments_keeps (known : I.OfSpan first) (starts : StartsAt I.OfSpan left) :
    Keeps I (StartsAt I.OfSpan) (segments first left) := by
  refine keeps_loop (fun {left start} starts holds again => ?_) starts
  rw [run_segments]
  split
  · exact .ended holds (by assumption) starts
  · rename_i lexeme rest front
    split
    · refine (keeps_expect _ _ (I.behind holds front)).bind fun step next reads behind _ => ?_
      have shorter := Nat.lt_of_le_of_lt (size_le_of_run reads) (Pending.behind_size front)
      exact again shorter ⟨first, known, rfl⟩ behind
    · exact ⟨holds, starts⟩

theorem atom_keeps (keeps : Keeps I (StartsAt I.OfSpan) inner) : Keeps I (StartsAt I.OfSpan) (atom inner) := by
  refine (keeps_take _).bind fun lexeme known => ?_
  split
  · exact segments_keeps known ⟨_, known, rfl⟩
  · split
    · exact segments_keeps known ⟨_, known, rfl⟩
    · exact keeps.bind fun expr starts => (keeps_expectToken ..).bind fun _ _ => segments_keeps known starts
    · exact keeps_fail rfl

theorem filtered_keeps (keeps : Keeps I (StartsAt I.OfSpan) operand) : Keeps I (StartsAt I.OfSpan) (filtered operand) :=
  keeps_nextSpan.bind fun _ known => keeps.bind fun _ starts => filters_keeps known starts

theorem disjunction_keeps (keeps : Keeps I (StartsAt I.OfSpan) operand) :
    Keeps I (StartsAt I.OfSpan) (disjunction operand) :=
  operation_keeps _ (operation_keeps _ (negation_keeps (operation_keeps _ (filtered_keeps keeps))))

theorem operand_keeps (levels : Nat) : Keeps I (StartsAt I.OfSpan) (Expr.operand levels) := by
  induction levels using Nat.strongRecOn with
  | ind levels ih =>
  match levels with
  | 0 => exact keeps_fail rfl
  | 1 => exact atom_keeps (keeps_fail rfl)
  | levels + 2 => exact atom_keeps (disjunction_keeps (ih levels (by omega)))

theorem parse_keeps (levels : Nat) : Keeps I (StartsAt I.OfSpan) (parse levels) := by
  cases levels with
  | zero => exact keeps_fail rfl
  | succ levels => exact disjunction_keeps (operand_keeps levels)

theorem path_keeps (levels : Nat) : Preserves I (path levels) := by
  refine (operand_keeps levels).bind fun expr _ => ?_
  split
  · exact keeps_pure trivial
  · exact keeps_fail rfl

end Expr

namespace Stmt

theorem quotedName_keeps (expected : String) : Preserves I (quotedName expected) :=
  (keeps_expect ..).bind fun _ _ => keeps_pure trivial

theorem endOfTag_keeps : Keeps I I.OfSpan endOfTag :=
  keeps_expectToken ..

theorem layoutTag_keeps : Preserves I layoutTag := by
  refine keeps_pending.bind fun _ _ => ?_
  split
  · exact keeps_fail rfl
  · exact keeps_noteLayout.bind fun _ _ => (quotedName_keeps _).bind fun _ _ => endOfTag_keeps.bind fun _ _ =>
      keeps_pure trivial

theorem sectionEnd_keeps : Preserves I sectionEnd := by
  refine keeps_rounds fun {start} holds again => ?_
  rw [run_sectionEnd]
  split
  · exact I.missing holds (by assumption) rfl
  · rename_i lexeme rest front
    have behind := I.behind holds front
    have more := again (Pending.behind_size front) behind
    split
    · refine (keeps_peek behind).bind fun token _ _ _ _ => ?_
      dsimp only
      split
      · exact (keeps_take _ behind).bind fun _ _ _ behind _ => (endOfTag_keeps behind).bind fun _ _ _ behind _ =>
          ⟨behind, trivial⟩
      · split
        · exact .misread behind rfl
        · exact more
    · exact more

theorem sectionTag_keeps (source : List Char) : Preserves I (sectionTag source) := by
  refine (quotedName_keeps _).bind fun section_ _ => endOfTag_keeps.bind fun _ _ => keeps_pending.bind fun _ _ => ?_
  split
  · exact keeps_fail rfl
  · exact (keeps_noteSection section_).bind fun _ _ => sectionEnd_keeps.bind fun _ _ => keeps_pure trivial

theorem eachTag_keeps (levels : Nat) : Preserves I (eachTag levels) :=
  (keeps_expect ..).bind fun _ _ => (keeps_expectToken ..).bind fun _ _ => (Expr.parse_keeps levels).bind fun _ _ =>
    (keeps_expectToken ..).bind fun _ _ => (quotedName_keeps _).bind fun _ _ => endOfTag_keeps.bind fun _ _ =>
      keeps_pure trivial

theorem binding_keeps (levels : Nat) : Preserves I (binding levels) :=
  (quotedName_keeps _).bind fun _ _ => (keeps_expectToken ..).bind fun _ _ => (Expr.path_keeps levels).bind fun _ _ =>
    keeps_pure trivial

theorem moreBindings_keeps (levels : Nat) : Preserves I (moreBindings levels) := by
  refine keeps_rounds fun {start} holds again => ?_
  rw [run_moreBindings]
  refine (keeps_skip _ holds).bind fun closed next skips behind _ => ?_
  dsimp only
  split
  · exact ⟨behind, trivial⟩
  refine (keeps_expect _ _ behind).bind fun comma after commas behind _ => ?_
  refine (keeps_skip _ behind).bind fun closed next' skips' behind _ => ?_
  dsimp only
  split
  · exact ⟨behind, trivial⟩
  refine (binding_keeps levels behind).bind fun bound next'' binds behind _ => ?_
  have shorter : next''.size < start.size := by
    have := size_lt_of_expect commas
    have := size_le_of_run skips
    have := size_le_of_run skips'
    have := size_le_of_run binds
    omega
  exact (again shorter behind).bind fun _ _ _ behind _ => ⟨behind, trivial⟩

theorem bindings_keeps (levels : Nat) : Preserves I (bindings levels) := by
  refine (keeps_skip _).bind fun _ _ => ?_
  split
  · exact keeps_pure trivial
  · exact (binding_keeps levels).bind fun _ _ => (moreBindings_keeps levels).bind fun _ _ => keeps_pure trivial

theorem embedTag_keeps (levels : Nat) : Preserves I (embedTag levels) := by
  refine (quotedName_keeps _).bind fun _ _ => (keeps_skip _).bind fun _ _ => ?_
  split
  · exact (keeps_expectToken ..).bind fun _ _ => (bindings_keeps levels).bind fun _ _ => endOfTag_keeps.bind fun _ _ =>
      keeps_pure trivial
  · exact endOfTag_keeps.bind fun _ _ => keeps_pure trivial

theorem output_keeps (levels : Nat) (start : Span) : Preserves I (tag.output levels start) :=
  (Expr.parse_keeps levels).bind fun _ _ => endOfTag_keeps.bind fun _ _ => (keeps_spanFrom start).bind fun _ _ =>
    keeps_pure trivial

theorem tag_keeps {source : List Char} {levels : Nat} {conditional : Parse Branches} {start : Span}
    (inside : Preserves I conditional) : Preserves I (tag source levels conditional start) := by
  refine keeps_peek.bind fun token _ => ?_
  split
  · exact keeps_fail rfl
  · split
    · refine (keeps_take _).bind fun _ _ => ?_
      have spanned {stmt : Span → Stmt} : Preserves I (do return stmt (← spanFrom start)) :=
        (keeps_spanFrom start).bind fun _ _ => keeps_pure trivial
      split
      · exact layoutTag_keeps.bind fun _ _ => spanned
      · exact (sectionTag_keeps source).bind fun _ _ => spanned
      · exact (quotedName_keeps _).bind fun _ _ => endOfTag_keeps.bind fun _ _ => spanned
      · exact inside.bind fun _ _ => spanned
      · exact (eachTag_keeps levels).bind fun _ _ => spanned
      · exact (quotedName_keeps _).bind fun _ _ => endOfTag_keeps.bind fun _ _ => spanned
      · exact (embedTag_keeps levels).bind fun _ _ => spanned
      · exact keeps_fail rfl
    · exact output_keeps levels start
  · exact output_keeps levels start

theorem block_keeps {tag : Span → Parse Stmt} (stops : Token → Bool) (tags : ∀ span, Preserves I (tag span)) :
    Preserves I (block tag stops) := by
  refine keeps_rounds fun {start} holds again => ?_
  rw [run_block]
  split
  · exact .ended holds (by assumption) trivial
  · rename_i lexeme rest front
    have behind := I.behind holds front
    have shorter := Pending.behind_size front
    split
    · exact (again shorter behind).bind fun _ _ _ behind _ => ⟨behind, trivial⟩
    · refine (keeps_peek behind).bind fun token _ _ _ _ => ?_
      dsimp only
      split
      · exact ⟨behind, trivial⟩
      · refine (tags _ behind).bind fun stmt next reads behind _ => ?_
        have shorter := Nat.lt_of_le_of_lt (size_le_of_run reads) shorter
        exact (again shorter behind).bind fun _ _ _ behind _ => ⟨behind, trivial⟩
    · exact .misread behind rfl

theorem afterBranch_keeps {condition : Parse Expr} {body : (Token → Bool) → Parse (List Stmt)}
    (conditions : Keeps I (Expr.StartsAt I.OfSpan) condition) (bodies : ∀ stops, Preserves I (body stops)) :
    Preserves I (afterBranch condition body) := by
  refine (keeps_expect ..).bind fun found _ => ?_
  obtain ⟨keyword, span⟩ := found
  dsimp only
  split
  · exact conditions.bind fun _ _ => keeps_pure trivial
  · exact endOfTag_keeps.bind fun _ _ => (bodies _).bind fun _ _ => (keeps_expectToken ..).bind fun _ _ =>
      keeps_pure trivial
  · exact keeps_pure trivial

theorem branches_keeps {condition : Parse Expr} {body : (Token → Bool) → Parse (List Stmt)}
    (conditions : Keeps I (Expr.StartsAt I.OfSpan) condition) (bodies : ∀ stops, Preserves I (body stops))
    (first : Expr) : Preserves I (branches condition body first) := by
  refine @keeps_loop I _ _ Expr (fun _ => True) (branches condition body) (fun {first start} _ holds again => ?_) first
    trivial
  rw [run_branches]
  refine (keeps_expect _ _ holds).bind fun ending next ends behind _ => ?_
  refine (bodies _ behind).bind fun inner next' reads behind _ => ?_
  refine (afterBranch_keeps conditions bodies behind).bind fun after next'' goes behind _ => ?_
  have shorter : next''.size < start.size := by
    have := size_lt_of_expect ends
    have := size_le_of_run reads
    have := size_le_of_run goes
    omega
  cases after with
  | done otherwise => exact ⟨behind, trivial⟩
  | branch second => exact (again shorter trivial behind).bind fun _ _ _ behind _ => ⟨behind, trivial⟩

theorem conditionalTag_keeps {condition : Parse Expr} {body : (Token → Bool) → Parse (List Stmt)}
    (conditions : Keeps I (Expr.StartsAt I.OfSpan) condition) (bodies : ∀ stops, Preserves I (body stops)) :
    Preserves I (conditionalTag condition body) :=
  conditions.bind fun first _ => (branches_keeps conditions bodies first).bind fun _ _ => endOfTag_keeps.bind fun _ _ =>
    keeps_pure trivial

theorem parse_keeps (source : List Char) (levels : Nat) (stops : Token → Bool) :
    Preserves I (parse source levels stops) := by
  induction levels generalizing stops with
  | zero => exact block_keeps stops fun _ => tag_keeps (keeps_fail rfl)
  | succ levels ih =>
    exact block_keeps stops fun _ => tag_keeps (conditionalTag_keeps (Expr.parse_keeps levels) ih)

end Stmt

/-- The failure of a template is one of those that its tokens allow. -/
theorem Template.parseFrom_misread {source : List Char} {cursor : Cursor} {misread : Misread}
    (fails : parseFrom source cursor = .error misread)
    (holds : let before : Position := ⟨cursor.position.line, 0, 0⟩
      I.Holds { tokens := cursor.lexemes.tokens, problem := cursor.lexemes.problem, last := ⟨before, before⟩ }) :
    I.OfMisread misread := by
  have kept := Stmt.parse_keeps source maxSyntaxLevels (fun _ => false) holds
  unfold parseFrom at fails
  dsimp only at fails
  split at fails
  · rename_i cause failed
    obtain rfl := Except.error.inj fails
    simp only [Parse.run, failed, Except.map] at kept
    exact kept
  · cases fails

end TextTemplate
