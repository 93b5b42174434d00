import TextTemplate.Proofs.Syntax.Precedence

/-!
Tokens that are read as an expression spell the tree that is read, provided that no reserved word
stands where an operand is expected; there it would be read as the name of a variable. Together with
the other direction, the readers of expressions accept exactly the spellings within their limit.
-/
namespace TextTemplate

open Parse

/-- Tokens without their places. -/
def tokensOf (lexemes : List Lexeme) : List Token :=
  lexemes.map (·.token)

@[simp]
theorem tokensOf_nil : tokensOf [] = [] := rfl

@[simp]
theorem tokensOf_cons (lexeme : Lexeme) (rest : List Lexeme) :
    tokensOf (lexeme :: rest) = lexeme.token :: tokensOf rest := rfl

@[simp]
theorem tokensOf_append (a b : List Lexeme) : tokensOf (a ++ b) = tokensOf a ++ tokensOf b :=
  List.map_append

namespace Level

variable {nesting : Nat} {level : Level} {atom : Parse Expr}

/-- Tokens that are an expression of a level, and spell it. -/
structure Forms (nesting : Nat) (level : Level) (start next : Pending) (e : Expr) (taken : List Lexeme) : Prop where
  split : start.tokens = taken ++ next.tokens
  behind : (Expected.operand level.negatable).behind (tokensOf taken) = .operator
  spells : (Expected.operand level.negatable).reserved (tokensOf taken) = false →
    Expr.Spelled nesting level e (tokensOf taken)

/-- What a reader of a level reads is spelled by the tokens it takes. -/
def Sound (nesting : Nat) (level : Level) (reader : Parse Expr) : Prop :=
  ∀ start next e, reader.run start = .ok (e, next) → ∃ taken, Forms nesting level start next e taken

/-- Tokens behind an operand that make a longer expression of it. -/
structure Extends (nesting : Nat) (level : Level) (start next : Pending) (left e : Expr)
    (taken : List Lexeme) : Prop where
  split : start.tokens = taken ++ next.tokens
  behind : Expected.operator.behind (tokensOf taken) = .operator
  spells : Expected.operator.reserved (tokensOf taken) = false → ∀ before, Expr.Spelled nesting level left before →
    Expr.Spelled nesting level e (before ++ tokensOf taken)

theorem Extends.refl (start : Pending) (e : Expr) : Extends nesting level start start e e [] :=
  ⟨rfl, rfl, fun _ before spelled => by simpa using spelled⟩

theorem Extends.trans {start middle next : Pending} {left inner e : Expr} {taken later : List Lexeme}
    (first : Extends nesting level start middle left inner taken)
    (second : Extends nesting level middle next inner e later) :
    Extends nesting level start next left e (taken ++ later) := by
  refine ⟨?_, ?_, ?_⟩
  · rw [first.split, second.split, List.append_assoc]
  · rw [tokensOf_append, Expected.behind_append, first.behind, second.behind]
  · intro free before spelled
    rw [tokensOf_append, Expected.reserved_append, first.behind] at free
    obtain ⟨freeFirst, freeSecond⟩ := Bool.or_eq_false_iff.mp free
    rw [tokensOf_append, ← List.append_assoc]
    exact second.spells freeSecond _ (first.spells freeFirst before spelled)

theorem Forms.extended {start middle next : Pending} {left e : Expr} {taken later : List Lexeme}
    (first : Forms nesting level start middle left taken) (second : Extends nesting level middle next left e later) :
    Forms nesting level start next e (taken ++ later) := by
  refine ⟨?_, ?_, ?_⟩
  · rw [first.split, second.split, List.append_assoc]
  · rw [tokensOf_append, Expected.behind_append, first.behind, second.behind]
  · intro free
    rw [tokensOf_append, Expected.reserved_append, first.behind] at free
    obtain ⟨freeFirst, freeSecond⟩ := Bool.or_eq_false_iff.mp free
    rw [tokensOf_append]
    exact second.spells freeSecond _ (first.spells freeFirst)

/-- An expression is one of a looser level, unless it starts with what negates there. -/
theorem Forms.loosened {start next : Pending} {e : Expr} {taken : List Lexeme}
    (forms : Forms nesting level.tighter start next e taken)
    (plain : level.tighter.negatable = level.negatable ∨
      ∀ first ∈ start.tokens.head?, Expr.isNot first.token = false) :
    Forms nesting level start next e taken := by
  obtain ⟨split, behind, spells⟩ := forms
  rcases plain with same | plain
  · rw [same] at behind spells
    exact ⟨split, behind, fun free => .loosen (spells free)⟩
  cases taken with
  | nil => cases behind
  | cons first taken =>
    have plain := plain first (by rw [split]; rfl)
    obtain ⟨after, free⟩ := Expected.operand_congr plain level.negatable level.tighter.negatable
    refine ⟨split, ?_, ?_⟩
    · rw [tokensOf_cons, Expected.behind_cons, after]
      exact behind
    · rw [tokensOf_cons, Expected.reserved, after, free]
      exact fun free => .loosen (spells free)

/-- A loop behind an operand stops there, or takes some tokens and goes on behind them. -/
def Rounds (nesting : Nat) (level : Level) (loop : Span → Expr → Parse Expr) : Prop :=
  ∀ start next first left e, (loop first left).run start = .ok (e, next) →
    e = left ∧ next = start ∨
      ∃ inner middle taken, taken ≠ [] ∧ Extends nesting level start middle left inner taken ∧
        (loop first inner).run middle = .ok (e, next)

theorem Rounds.extends {loop : Span → Expr → Parse Expr} (rounds : Rounds nesting level loop) {start next : Pending}
    {first : Span} {left e : Expr} (reads : (loop first left).run start = .ok (e, next)) :
    ∃ taken, Extends nesting level start next left e taken := by
  induction size : start.tokens.length using Nat.strongRecOn generalizing start left with
  | ind n ih =>
  obtain ⟨rfl, rfl⟩ | ⟨inner, middle, taken, some, round, more⟩ := rounds _ _ _ _ _ reads
  · exact ⟨[], .refl _ _⟩
  · have shorter : middle.tokens.length < n := by
      have positive := List.length_pos_iff.mpr some
      rw [← size, round.split, List.length_append]
      omega
    obtain ⟨later, behind⟩ := ih _ shorter more rfl
    exact ⟨taken ++ later, round.trans behind⟩

theorem chain_rounds {operand : Parse Expr} (sound : Sound nesting level.tighter operand) :
    Rounds nesting level (Expr.chain level.operator operand) := by
  intro start next first left e reads
  rw [Expr.run_chain] at reads
  split at reads
  · split at reads
    · cases reads
    · obtain ⟨rfl, rfl⟩ := Prod.mk.inj (Except.ok.inj reads)
      exact .inl ⟨rfl, rfl⟩
  rename_i lexeme rest front
  split at reads
  · obtain ⟨rfl, rfl⟩ := Prod.mk.inj (Except.ok.inj reads)
    exact .inl ⟨rfl, rfl⟩
  rename_i op operates
  obtain ⟨⟨right, middle⟩, one, more⟩ := bind_eq_ok.mp reads
  obtain ⟨taken, split, behind, spells⟩ := sound _ _ _ one
  have after := Level.after_operator operates
  refine .inr ⟨_, middle, lexeme :: taken, List.cons_ne_nil _ _, ⟨?_, ?_, ?_⟩, more⟩
  · rw [front]
    exact congrArg (lexeme :: ·) split
  · rw [tokensOf_cons, Expected.behind_cons, after, behind]
  · intro free before spelled
    rw [tokensOf_cons, Expected.reserved, after] at free
    exact .binary operates spelled (spells (Bool.or_eq_false_iff.mp free).2)

theorem filters_rounds : Rounds nesting .filter Expr.filters := by
  intro start next first left e reads
  rw [Expr.run_filters] at reads
  split at reads
  · split at reads
    · cases reads
    · obtain ⟨rfl, rfl⟩ := Prod.mk.inj (Except.ok.inj reads)
      exact .inl ⟨rfl, rfl⟩
  rename_i pipe rest front
  split at reads
  rotate_left
  · obtain ⟨rfl, rfl⟩ := Prod.mk.inj (Except.ok.inj reads)
    exact .inl ⟨rfl, rfl⟩
  rename_i pipes
  obtain ⟨⟨step, middle⟩, one, more⟩ := bind_eq_ok.mp reads
  obtain ⟨word, rest, name, rfl, named,
      ⟨rfl, rfl, -⟩ | ⟨colon, given, behind, argument, rfl, colons, gives, rfl, rfl⟩⟩ :=
    Expr.run_filterStep_eq_ok one
  · refine .inr ⟨_, _, [pipe, word], List.cons_ne_nil _ _, ?_, more⟩
    refine ⟨front, ?_, ?_⟩
    · simp [pipes, Expected.after]
    · intro _ before spelled
      have same : tokensOf [pipe, word] = [.pipe, .word name] := by simp [pipes, named]
      rw [same]
      exact .filter spelled
  · refine .inr ⟨_, _, [pipe, word, colon, given], List.cons_ne_nil _ _, ?_, more⟩
    refine ⟨front, ?_, ?_⟩
    · simp [pipes, colons, Expected.after]
    · intro _ before spelled
      have same : tokensOf [pipe, word, colon, given] = [.pipe, .word name, .colon, given.token] := by
        simp [pipes, named, colons]
      rw [same]
      exact .filterWith spelled gives

theorem segments_rounds : Rounds nesting .path Expr.segments := by
  intro start next first left e reads
  rw [Expr.run_segments] at reads
  split at reads
  · split at reads
    · cases reads
    · obtain ⟨rfl, rfl⟩ := Prod.mk.inj (Except.ok.inj reads)
      exact .inl ⟨rfl, rfl⟩
  rename_i dot rest front
  split at reads
  rotate_left
  · obtain ⟨rfl, rfl⟩ := Prod.mk.inj (Except.ok.inj reads)
    exact .inl ⟨rfl, rfl⟩
  rename_i dots
  obtain ⟨⟨⟨name, _⟩, _⟩, one, more⟩ := bind_eq_ok.mp reads
  obtain ⟨key, rest, rfl, named, -, rfl⟩ := run_expect_eq_ok.mp one
  refine .inr ⟨_, _, [dot, key], List.cons_ne_nil _ _, ?_, more⟩
  refine ⟨front, ?_, ?_⟩
  · simp [dots, Expected.after]
  · intro _ before spelled
    have same : tokensOf [dot, key] = [.dot, key.token] := by simp [dots]
    rw [same]
    exact .member spelled named

/-- A level reads an operand of the next tighter one and what it goes on with. -/
theorem sound_of_tighter {atom : Parse Expr} (inner : level ≠ .path) (plain : level ≠ .not)
    (operand : Sound nesting level.tighter (level.tighter.reader atom)) (loop : Rounds nesting level (level.loop atom)) :
    Sound nesting level (level.reader atom) := by
  intro start next e reads
  rw [run_reader inner plain] at reads
  obtain ⟨⟨left, middle⟩, one, more⟩ := bind_eq_ok.mp reads
  obtain ⟨taken, forms⟩ := operand _ _ _ one
  obtain ⟨later, longer⟩ := loop.extends more
  have same : level.tighter.negatable = level.negatable := by
    cases level <;> first | rfl | exact absurd rfl inner | exact absurd rfl plain
  exact ⟨taken ++ later, (forms.loosened (.inl same)).extended longer⟩

theorem negation_sound {operand : Parse Expr} (sound : Sound nesting .comparison operand) :
    Sound nesting .not (Expr.negation operand) := by
  intro start next e reads
  induction size : start.tokens.length using Nat.strongRecOn generalizing start e with
  | ind n ih =>
  rw [Expr.run_negation] at reads
  split at reads
  · rename_i front
    split at reads
    · cases reads
    · obtain ⟨taken, forms⟩ := sound _ _ _ reads
      exact ⟨taken, forms.loosened (.inr (by simp [front]))⟩
  rename_i first rest front
  split at reads
  · rename_i negates
    obtain ⟨⟨inner, middle⟩, one, more⟩ := bind_eq_ok.mp reads
    obtain ⟨rfl, rfl⟩ := Prod.mk.inj (Except.ok.inj more)
    have shorter : (start.behind first rest).tokens.length < n := by
      rw [← size, front]
      exact Nat.lt_succ_self _
    obtain ⟨taken, split, behind, spells⟩ := ih _ shorter _ _ one rfl
    have opens : (Expected.operand Level.not.negatable).after first.token = .operand Level.not.negatable := by
      unfold Expr.isNot at negates
      split at negates
      · rename_i bang
        rw [bang]
        rfl
      · rename_i word
        rw [word]
        rfl
      · cases negates
    refine ⟨first :: taken, ?_, ?_, ?_⟩
    · rw [front]
      exact congrArg (first :: ·) split
    · rw [tokensOf_cons, Expected.behind_cons, opens, behind]
    · intro free
      rw [tokensOf_cons, Expected.reserved, opens] at free
      exact .not negates (spells (Bool.or_eq_false_iff.mp free).2)
  · rename_i plain
    obtain ⟨taken, forms⟩ := sound _ _ _ reads
    exact ⟨taken, forms.loosened (.inr (by simpa [front] using plain))⟩

/-- A literal is an operand. -/
theorem after_literal {token : Token} {value : Value} (stands : Expr.literal? token = some value) :
    (Expected.operand Level.path.negatable).after token = .operator := by
  cases token with
  | parenOpen => cases stands
  | _ => rfl

/-- An atom is a literal, a name or an expression in parentheses, with path segments behind it. -/
theorem atom_sound {inner : Parse Expr} (sound : ∀ {start next e}, inner.run start = .ok (e, next) →
    ∃ room taken, room + 1 = nesting ∧ Forms room .or start next e taken) :
    Sound nesting .path (Expr.atom inner) := by
  intro start next e reads
  have extended {first : Span} {middle : Pending} {left : Expr} {taken : List Lexeme}
      (forms : Forms nesting .path start middle left taken)
      (more : (Expr.segments first left).run middle = .ok (e, next)) :
      ∃ taken, Forms nesting .path start next e taken := by
    obtain ⟨later, longer⟩ := segments_rounds.extends more
    exact ⟨taken ++ later, forms.extended longer⟩
  cases front : start.tokens with
  | nil =>
    rw [Expr.atom, run_bind, run_take_nil front] at reads
    cases reads
  | cons first rest =>
    rw [Expr.run_atom_cons front] at reads
    split at reads
    · rename_i value stands
      have forms : Forms nesting .path start (start.behind first rest) (.const value first.span) [first] :=
        ⟨front, after_literal stands, fun _ => .literal stands⟩
      exact extended forms reads
    rename_i free
    split at reads
    · rename_i name word
      have forms : Forms nesting .path start (start.behind first rest) (.var name first.span) [first] := by
        refine ⟨front, ?_, fun unreserved => ?_⟩
        · rw [tokensOf_cons, word]
          rfl
        · rw [word] at free
          rw [tokensOf_cons, word] at unreserved ⊢
          refine .name ⟨free, ?_⟩
          simpa [Expected.reserved, Expected.reserves, negatable, rank] using unreserved
      exact extended forms reads
    · rename_i opens
      obtain ⟨⟨inside, middle⟩, one, more⟩ := bind_eq_ok.mp reads
      obtain ⟨⟨span, behind⟩, closes, more⟩ := bind_eq_ok.mp more
      obtain ⟨room, taken, rfl, inner⟩ := sound one
      obtain ⟨later, closed, rfl⟩ := run_expectToken_eq_ok.mp closes
      have split : rest = taken ++ middle.tokens := inner.split
      have opened : (Expected.operand Level.path.negatable).after .parenOpen = .operand Level.or.negatable := rfl
      have forms : Forms (room + 1) .path start (middle.behind ⟨.parenClose, span⟩ later) inside
          (first :: (taken ++ [⟨.parenClose, span⟩])) := by
        refine ⟨?_, ?_, fun unreserved => ?_⟩
        · rw [front, split, closed]
          simp [Pending.behind]
        · rw [tokensOf_cons, tokensOf_append, opens, Expected.behind_cons, Expected.behind_append, opened, inner.behind]
          rfl
        · rw [tokensOf_cons, tokensOf_append, opens] at unreserved ⊢
          rw [Expected.reserved, Expected.reserved_append, opened] at unreserved
          have within := (Bool.or_eq_false_iff.mp (Bool.or_eq_false_iff.mp unreserved).2).1
          exact .group (inner.spells within)
      exact extended forms more
    · cases reads

theorem disjunction_sound {atom : Parse Expr} (sound : Sound nesting .path atom) :
    Sound nesting .or (Expr.disjunction atom) := by
  have filter : Sound nesting .filter (filter.reader atom) :=
    sound_of_tighter nofun nofun sound filters_rounds
  have comparison : Sound nesting .comparison (comparison.reader atom) :=
    sound_of_tighter nofun nofun filter (chain_rounds filter)
  have not : Sound nesting .not (not.reader atom) := negation_sound comparison
  have and : Sound nesting .and (and.reader atom) :=
    sound_of_tighter nofun nofun not (chain_rounds not)
  exact sound_of_tighter nofun nofun and (chain_rounds and)

theorem negation_fails {operand : Parse Expr} (fails : ∀ start, ∃ misread, operand.run start = .error misread)
    (start : Pending) : ∃ misread, (Expr.negation operand).run start = .error misread := by
  induction size : start.tokens.length using Nat.strongRecOn generalizing start with
  | ind n ih =>
  rw [Expr.run_negation]
  split
  · split
    · exact ⟨_, rfl⟩
    · exact fails start
  rename_i first rest front
  split
  · have shorter : (start.behind first rest).tokens.length < n := by
      rw [← size, front]
      exact Nat.lt_succ_self _
    obtain ⟨misread, error⟩ := ih _ shorter (start.behind first rest) rfl
    exact ⟨misread, by rw [error]; rfl⟩
  · exact fails start

/-- Where no atom can be read, no expression can. -/
theorem disjunction_fails {atom : Parse Expr} (fails : ∀ start, ∃ misread, atom.run start = .error misread)
    (start : Pending) : ∃ misread, (Expr.disjunction atom).run start = .error misread := by
  have looser (level : Level) (inner : level ≠ path) (plain : level ≠ not)
      (fails : ∀ start, ∃ misread, (level.tighter.reader atom).run start = .error misread) (start : Pending) :
      ∃ misread, (level.reader atom).run start = .error misread := by
    obtain ⟨misread, error⟩ := fails start
    exact ⟨misread, by rw [run_reader inner plain, error]; rfl⟩
  have filter := looser .filter nofun nofun fails
  have comparison := looser .comparison nofun nofun filter
  have not := negation_fails comparison
  have and := looser .and nofun nofun not
  exact looser .or nofun nofun and start

end Level

namespace Expr

/-- What is read as an expression is a spelling, with as many parentheses around one another as there
are levels for: two for each, and two for the expression itself. -/
theorem parse_forms (levels : Nat) {start next : Pending} {e : Expr} (reads : (parse levels).run start = .ok (e, next)) :
    ∃ nesting taken, (levels = 2 * nesting + 2 ∨ levels = 2 * nesting + 3) ∧
      Level.Forms nesting .or start next e taken := by
  induction levels using Nat.strongRecOn generalizing start next e with
  | ind levels ih =>
  match levels with
  | 0 => cases reads
  | 1 =>
    obtain ⟨misread, error⟩ := Level.disjunction_fails (fun start => ⟨_, rfl⟩ : ∀ start, ∃ misread,
      (operand 0).run start = .error misread) start
    have error : (parse 1).run start = .error misread := error
    rw [error] at reads
    cases reads
  | levels + 2 =>
    have atoms : Level.Sound (levels / 2) .path (operand (levels + 1)) := by
      refine Level.atom_sound fun inside => ?_
      obtain ⟨room, taken, count, forms⟩ := ih levels (by omega) inside
      exact ⟨room, taken, by omega, forms⟩
    obtain ⟨taken, forms⟩ := Level.disjunction_sound atoms _ _ _ reads
    exact ⟨levels / 2, taken, by omega, forms⟩

/-- Expressions are read as they are spelled. -/
theorem parse_spelled (levels : Nat) (start : Pending) :
    (∀ {nesting e lexemes tagEnd rest}, 2 * (nesting + 1) ≤ levels → Spelled nesting .or e (tokensOf lexemes) →
      start.tokens = lexemes ++ tagEnd :: rest → tagEnd.token = .tagEnd →
      ∃ value next, (parse levels).run start = .ok (value, next) ∧ value.bare = e.bare ∧ next.tokens = tagEnd :: rest) ∧
    (∀ e : Expr, e.Writable → Spelled e.nesting .or e e.tokens ∧
      ∀ {nesting spelling}, Spelled nesting .or e spelling → e.tokens.length ≤ spelling.length ∧ e.nesting ≤ nesting) ∧
    ∀ {value next}, (parse levels).run start = .ok (value, next) →
      ∃ taken, start.tokens = taken ++ next.tokens ∧
        ((Expected.operand true).reserved (tokensOf taken) = false ↔
          ∃ nesting, 2 * (nesting + 1) ≤ levels ∧ Spelled nesting .or value (tokensOf taken)) := by
  refine ⟨?_, ?_, ?_⟩
  · intro nesting e lexemes tagEnd rest enough spelled front ends
    obtain ⟨levels, rfl⟩ : ∃ more, levels = more + 1 := ⟨levels - 1, by omega⟩
    have none (level : Level) : level.takes tagEnd.token = false := by
      rw [ends]
      cases level <;> rfl
    obtain ⟨next, value, behind, bare, reads⟩ :=
      (spelled.passes (show 2 * nesting < levels by omega)).reads rfl front fun level _ => none level
    rw [Level.loop_stops behind (none .or)] at reads
    exact ⟨value, next, reads, bare, behind⟩
  · intro e writable
    refine ⟨(spelled_tokens writable).loosened (Nat.zero_le _), fun spelled => ?_⟩
    have loosest : Level.or.rank = 0 := rfl
    simpa [guarded, guardedNesting, loosest] using spelled.shortest
  · intro value next reads
    obtain ⟨nesting, taken, count, forms⟩ := parse_forms levels reads
    refine ⟨taken, forms.split, fun free => ⟨nesting, by omega, forms.spells free⟩, ?_⟩
    rintro ⟨_, -, spelled⟩
    exact spelled.unreserved.2

/-- A condition in which one operand needs parentheses. -/
theorem parse_spelled_condition :
    let trimmed : Expr := .filter "trim" (.binary .or (.var "a" {}) (.member (.var "b" {}) "c" {}) {}) (some "x") {}
    let e : Expr := .binary .and (.not (.binary .eq trimmed (.const (.int 1) {}) {}) {}) (.var "d" {}) {}
    let start : Pending := { tokens := e.tokens.map (⟨·, {}⟩) ++ [⟨.tagEnd, {}⟩], problem := none, last := {} }
    e.tokens = [.bang, .parenOpen, .word "a", .orOr, .word "b", .dot, .word "c", .parenClose, .pipe, .word "trim",
      .colon, .plainString "x", .eq, .int 1, .andAnd, .word "d"] ∧
    ∃ value next, (parse 150).run start = .ok (value, next) ∧ value.bare = e ∧ next.tokens = [⟨.tagEnd, {}⟩] ∧
      ∃ nesting, Spelled nesting .or value e.tokens := by
  intro trimmed e start
  obtain ⟨reads, writes, spells⟩ := parse_spelled 150 start
  have writable : e.Writable := by
    have name (word : String) (free : literal? (.word word) = none ∧ word ∉ reservedWords) : IsName word := free
    exact ⟨⟨⟨name "a" (by decide), name "b" (by decide)⟩, .int 1, rfl⟩, name "d" (by decide)⟩
  have spelled := (writes e writable).1
  obtain ⟨value, next, read, bare, behind⟩ := reads (by decide) spelled rfl rfl
  obtain ⟨taken, split, iff⟩ := spells read
  have same : e.tokens.map (⟨·, {}⟩) = taken := List.append_cancel_right (split.trans (by rw [behind]))
  obtain ⟨nesting, -, spelled⟩ := iff.mp (by rw [← same]; decide)
  rw [← same] at spelled
  exact ⟨rfl, value, next, read, bare, behind, nesting, spelled⟩

end Expr

end TextTemplate
