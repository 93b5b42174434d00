import TextTemplate.Proofs.Syntax.Grammar

/-!
What a reader of expressions takes does not depend on where it stands. It takes the same tokens in
every other place, up to the same follower or to a token that no expression goes on with, so that an
expression is what its own tokens are read as.
-/
namespace TextTemplate

open Parse

namespace Token

/-- Whether no level of an expression goes on with a token. -/
def Closes (token : Token) : Prop :=
  ∀ level : Level, level.takes token = false

/-- Whether a token is neither text nor a brace of a tag. -/
def isContent : Token → Bool
  | .text _ | .tagStart | .tagEnd => false
  | _ => true

theorem Closes.operator {token : Token} (closes : token.Closes) (level : Level) : level.operator token = none := by
  have taken := closes level
  cases level with
  | or | and | comparison => exact Option.isSome_eq_false_iff.mp taken |> Option.isNone_iff_eq_none.mp
  | not | filter | path => rfl

/-- No expression goes on with what stands outside of tags. -/
theorem closes_of_outer {token : Token} (outer : token.isContent = false) : token.Closes := by
  intro level
  cases token with
  | text | tagStart | tagEnd => cases level <;> rfl
  | _ => cases outer

/-- A token that a function tells apart from the tokens outside of tags. -/
theorem isContent_of_eq {β : Type} {f : Token → β} {a b : β} {token : Token} (holds : f token = a) (apart : a ≠ b)
    (text : ∀ s, f (.text s) = b) (start : f .tagStart = b) (stop : f .tagEnd = b) : token.isContent = true := by
  cases token with
  | text s => exact absurd (holds.symm.trans (text s)) apart
  | tagStart => exact absurd (holds.symm.trans start) apart
  | tagEnd => exact absurd (holds.symm.trans stop) apart
  | _ => rfl

theorem isContent_of_operator {level : Level} {token : Token} {op : BinaryOp}
    (operates : level.operator token = some op) : token.isContent = true := by
  cases inner : token.isContent with
  | true => rfl
  | false =>
    rw [(closes_of_outer inner).operator level] at operates
    cases operates

theorem closes_tagEnd : Closes .tagEnd :=
  closes_of_outer rfl

theorem closes_comma : Closes .comma := by
  intro level
  cases level <;> rfl

theorem closes_bracketClose : Closes .bracketClose := by
  intro level
  cases level <;> rfl

theorem closes_using : Closes (.word "using") := by
  intro level
  cases level <;> decide

end Token

namespace Pending

/-- What is pending when some tokens have been taken. -/
def past (start : Pending) (taken rest : List Lexeme) : Pending :=
  { start with tokens := rest, last := (taken.getLast?.map (·.span)).getD start.last }

/-- Tokens inside of a tag lead from one place to another. -/
structure Passes (taken : List Lexeme) (start next : Pending) : Prop where
  split : start.tokens = taken ++ next.tokens
  past : next = start.past taken next.tokens
  inner : ∀ lexeme ∈ taken, lexeme.token.isContent = true

/-- The token ahead is like the given one, or the given one is one with which no expression goes on. -/
def Meets (next : Pending) (follower : Lexeme) : Prop :=
  follower.token.Closes ∨ ∃ first ∈ next.tokens.head?, first.token = follower.token

variable {start middle next other : Pending} {first : Lexeme} {taken later rest : List Lexeme} {follower : Lexeme}

theorem past_past (start : Pending) (taken later middle rest : List Lexeme) :
    (start.past taken middle).past later rest = start.past (taken ++ later) rest := by
  unfold past
  rw [List.getLast?_append]
  cases later.getLast? <;> rfl

theorem behind_eq_past (start : Pending) (first : Lexeme) (rest : List Lexeme) :
    start.behind first rest = start.past [first] rest := rfl

theorem past_last (some : taken ≠ []) : (start.past taken rest).last = (taken.getLast some).span := by
  rw [past, List.getLast?_eq_some_getLast some]
  rfl

theorem span_of_tokens (some : taken ≠ []) (front : start.tokens = taken ++ rest) :
    start.span = (taken.head some).span := by
  cases taken with
  | nil => exact absurd rfl some
  | cons first taken => exact span_cons front

theorem Passes.refl (start : Pending) : Passes [] start start :=
  ⟨rfl, rfl, fun _ found => absurd found List.not_mem_nil⟩

theorem Passes.single (front : start.tokens = first :: rest) (plain : first.token.isContent = true) :
    Passes [first] start (start.behind first rest) := by
  refine ⟨front, rfl, fun lexeme found => ?_⟩
  obtain rfl := List.mem_singleton.mp found
  exact plain

theorem Passes.trans (one : Passes taken start middle) (two : Passes later middle next) :
    Passes (taken ++ later) start next := by
  refine ⟨by rw [one.split, two.split, List.append_assoc], ?_, fun lexeme found => ?_⟩
  · rw [← past_past start taken later middle.tokens, ← one.past]
    exact two.past
  · rcases List.mem_append.mp found with early | late
    · exact one.inner lexeme early
    · exact two.inner lexeme late

/-- Where tokens lead from one place to another, what stands in front of them meets the first of them. -/
theorem Passes.meets (passes : Passes later middle next) (meets : next.Meets follower) (rest : List Lexeme) :
    ∃ ahead behind, later ++ follower :: rest = ahead :: behind ∧ middle.Meets ahead := by
  cases later with
  | nil =>
    refine ⟨follower, rest, rfl, ?_⟩
    have same : middle.tokens = next.tokens := passes.split
    rwa [Meets, same]
  | cons ahead later =>
    refine ⟨ahead, later ++ follower :: rest, rfl, .inr ⟨ahead, ?_, rfl⟩⟩
    rw [passes.split]
    rfl

end Pending

namespace Parse

variable {α β : Type} {p : Parse α} {q : Parse β} {a : α} {b : β} {start middle next other : Pending}
  {taken later rest : List Lexeme} {follower : Lexeme}

/-- A reader takes some tokens for a value wherever they stand in front of a follower that the given place meets. -/
def TakesBefore (p : Parse α) (a : α) (taken : List Lexeme) (next : Pending) : Prop :=
  ∀ ⦃other follower rest⦄, other.tokens = taken ++ follower :: rest → next.Meets follower →
    p.run other = .ok (a, other.past taken (follower :: rest))

/-- A reader takes tokens for what they are. -/
def Local (p : Parse α) : Prop :=
  ∀ ⦃start next a⦄, p.run start = .ok (a, next) →
    ∃ taken, taken ≠ [] ∧ Pending.Passes taken start next ∧ TakesBefore p a taken next

/-- A reader that takes nothing in front of some tokens, among which are all that close an expression. -/
theorem TakesBefore.nil {stops : Token → Prop} (closing : ∀ {token : Token}, token.Closes → stops token)
    (front : ∀ ahead ∈ start.tokens.head?, stops ahead.token)
    (reads : ∀ {other follower rest}, other.tokens = follower :: rest → stops follower.token →
      p.run other = .ok (a, other)) : TakesBefore p a [] start := by
  intro other follower rest tokens meets
  have tokens : other.tokens = follower :: rest := tokens
  have stopped : stops follower.token := by
    rcases meets with closes | ⟨ahead, found, same⟩
    · exact closing closes
    · exact same ▸ front ahead found
  rw [reads tokens stopped, ← tokens]
  rfl

/-- What one reader takes and another one takes behind it stands in one place as in the other. -/
theorem TakesBefore.both (one : TakesBefore p a taken middle) (passes : Pending.Passes later middle next)
    (two : TakesBefore q b later next) (front : other.tokens = taken ++ later ++ follower :: rest)
    (meets : next.Meets follower) :
    p.run other = .ok (a, other.past taken (later ++ follower :: rest)) ∧
      q.run (other.past taken (later ++ follower :: rest)) = .ok (b, other.past (taken ++ later) (follower :: rest)) := by
  obtain ⟨ahead, behind, same, meetsAhead⟩ := passes.meets meets rest
  rw [List.append_assoc, same] at front
  constructor
  · rw [same]
    exact one front meetsAhead
  · rw [← Pending.past_past other taken later (later ++ follower :: rest)]
    exact two rfl meets

end Parse

namespace Level

variable {level : Level} {atom operand : Parse Expr} {loop : Span → Expr → Parse Expr} {start next : Pending}
  {first : Span} {left e : Expr}

/-- A loop behind an operand stops there, or takes some tokens and goes on; it does so wherever it stands. -/
def LocalRounds (loop : Span → Expr → Parse Expr) : Prop :=
  ∀ ⦃start next first left e⦄, (loop first left).run start = .ok (e, next) →
    (e = left ∧ next = start ∧ TakesBefore (loop first left) left [] start) ∨
    ∃ inner taken middle, taken ≠ [] ∧ Pending.Passes taken start middle ∧
      (loop first inner).run middle = .ok (e, next) ∧
      ∀ other follower rest, other.tokens = taken ++ follower :: rest → middle.Meets follower →
        (loop first left).run other = (loop first inner).run (other.past taken (follower :: rest))

theorem LocalRounds.takes (rounds : LocalRounds loop) (reads : (loop first left).run start = .ok (e, next)) :
    ∃ taken, Pending.Passes taken start next ∧ TakesBefore (loop first left) e taken next := by
  induction size : start.tokens.length using Nat.strongRecOn generalizing start left with
  | ind n ih =>
  obtain ⟨rfl, rfl, stops⟩ | ⟨inner, taken, middle, some, passes, more, round⟩ := rounds reads
  · exact ⟨[], .refl _, stops⟩
  have shorter : middle.tokens.length < n := by
    have positive := List.length_pos_iff.mpr some
    rw [← size, passes.split, List.length_append]
    omega
  obtain ⟨later, behind, takes⟩ := ih _ shorter more rfl
  refine ⟨taken ++ later, passes.trans behind, fun other follower rest front meets => ?_⟩
  obtain ⟨ahead, rest', same, meetsAhead⟩ := behind.meets meets rest
  rw [List.append_assoc, same] at front
  rw [round other ahead rest' front meetsAhead, ← same,
    ← Pending.past_past other taken later (later ++ follower :: rest)]
  exact takes rfl meets

theorem chain_localRounds (operand : Local (level.tighter.reader atom)) :
    LocalRounds (Expr.chain level.operator (level.tighter.reader atom)) := by
  intro start next first left e reads
  have stops (front : ∀ ahead ∈ start.tokens.head?, level.operator ahead.token = none) :
      TakesBefore (Expr.chain level.operator (level.tighter.reader atom) first left) left [] start := by
    refine .nil (·.operator level) front fun tokens free => ?_
    rw [Expr.run_chain, tokens]
    dsimp only
    rw [free]
  rw [Expr.run_chain] at reads
  split at reads
  · rename_i ended
    split at reads
    · cases reads
    · obtain ⟨rfl, rfl⟩ := Prod.mk.inj (Except.ok.inj reads)
      exact .inl ⟨rfl, rfl, stops (by simp [ended])⟩
  rename_i mark rest front
  split at reads
  · rename_i free
    obtain ⟨rfl, rfl⟩ := Prod.mk.inj (Except.ok.inj reads)
    exact .inl ⟨rfl, rfl, stops (by simpa [front] using free)⟩
  rename_i op operates
  obtain ⟨⟨right, middle⟩, one, more⟩ := bind_eq_ok.mp reads
  obtain ⟨taken, some, passes, takes⟩ := operand one
  have whole := (Pending.Passes.single front (Token.isContent_of_operator operates)).trans passes
  refine .inr ⟨_, mark :: taken, middle, List.cons_ne_nil _ _, whole, more, ?_⟩
  intro other follower rest' front' meets
  have reads' : (level.tighter.reader atom).run (other.behind mark (taken ++ follower :: rest')) = .ok (right, _) :=
    takes rfl meets
  have last : middle.last = ((other.behind mark (taken ++ follower :: rest')).past taken (follower :: rest')).last := by
    rw [passes.past, Pending.past_last some, Pending.past_last some]
  rw [Expr.run_chain, front']
  dsimp only [List.cons_append]
  rw [operates]
  dsimp only
  rw [reads']
  dsimp only [bind, Except.bind]
  rw [← last, Pending.behind_eq_past, Pending.past_past]
  rfl

theorem filters_localRounds : LocalRounds Expr.filters := by
  intro start next first left e reads
  have stops (front : ∀ ahead ∈ start.tokens.head?, ahead.token ≠ .pipe) :
      TakesBefore (Expr.filters first left) left [] start := by
    refine .nil (fun closes => of_decide_eq_false (closes .filter)) front fun tokens free => ?_
    rw [Expr.run_filters, tokens]
    exact if_neg free
  rw [Expr.run_filters] at reads
  split at reads
  · rename_i ended
    split at reads
    · cases reads
    · obtain ⟨rfl, rfl⟩ := Prod.mk.inj (Except.ok.inj reads)
      exact .inl ⟨rfl, rfl, stops (by simp [ended])⟩
  rename_i pipe rest front
  split at reads
  rotate_left
  · rename_i free
    obtain ⟨rfl, rfl⟩ := Prod.mk.inj (Except.ok.inj reads)
    exact .inl ⟨rfl, rfl, stops (by simpa [front] using free)⟩
  rename_i pipes
  have plain : pipe.token.isContent = true := by rw [pipes]; rfl
  obtain ⟨⟨step, middle⟩, one, more⟩ := bind_eq_ok.mp reads
  obtain ⟨word, rest, name, rfl, named,
      ⟨rfl, rfl, free⟩ | ⟨colon, given, behind, argument, rfl, colons, gives, rfl, rfl⟩⟩ :=
    Expr.run_filterStep_eq_ok one
  · have plainName : word.token.isContent = true := by rw [named]; rfl
    have passes : Pending.Passes [pipe, word] start (start.behind word rest) :=
      (Pending.Passes.single front plain).trans (.single rfl plainName)
    refine .inr ⟨_, [pipe, word], _, List.cons_ne_nil _ _, passes, more, fun other follower rest' front' meets => ?_⟩
    have unargued : follower.token ≠ .colon := by
      rcases meets with closes | ⟨ahead, found, same⟩
      · exact fun colon => of_decide_eq_false (closes .path) (.inr colon)
      · exact same ▸ free ahead found
    show (filter.loop (pure left) first left).run other = _
    exact loop_filter front' pipes named unargued
  · have plainName : word.token.isContent = true := by rw [named]; rfl
    have plainColon : colon.token.isContent = true := by rw [colons]; rfl
    have plainArgument : given.token.isContent = true :=
      Token.isContent_of_eq gives (Option.some_ne_none _) (fun _ => rfl) rfl rfl
    have passes : Pending.Passes [pipe, word, colon, given] start (start.behind given behind) :=
      (((Pending.Passes.single front plain).trans (.single rfl plainName)).trans (.single rfl plainColon)).trans
        (.single rfl plainArgument)
    refine .inr ⟨_, [pipe, word, colon, given], _, List.cons_ne_nil _ _, passes, more,
      fun other follower rest' front' _ => ?_⟩
    show (filter.loop (pure left) first left).run other = _
    exact loop_filterWith front' pipes named colons gives

theorem segments_localRounds : LocalRounds Expr.segments := by
  intro start next first left e reads
  have stops (front : ∀ ahead ∈ start.tokens.head?, ahead.token ≠ .dot) :
      TakesBefore (Expr.segments first left) left [] start := by
    refine .nil (fun closes dots => of_decide_eq_false (closes .path) (.inl dots)) front fun tokens free => ?_
    rw [Expr.run_segments, tokens]
    exact if_neg free
  rw [Expr.run_segments] at reads
  split at reads
  · rename_i ended
    split at reads
    · cases reads
    · obtain ⟨rfl, rfl⟩ := Prod.mk.inj (Except.ok.inj reads)
      exact .inl ⟨rfl, rfl, stops (by simp [ended])⟩
  rename_i dot rest front
  split at reads
  rotate_left
  · rename_i free
    obtain ⟨rfl, rfl⟩ := Prod.mk.inj (Except.ok.inj reads)
    exact .inl ⟨rfl, rfl, stops (by simpa [front] using free)⟩
  rename_i dots
  obtain ⟨⟨⟨name, _⟩, _⟩, one, more⟩ := bind_eq_ok.mp reads
  obtain ⟨key, rest, rfl, named, -, rfl⟩ := run_expect_eq_ok.mp one
  have plain : dot.token.isContent = true := by rw [dots]; rfl
  have plainName : key.token.isContent = true :=
    Token.isContent_of_eq named (Option.some_ne_none _) (fun _ => rfl) rfl rfl
  have passes : Pending.Passes [dot, key] start (start.behind key rest) :=
    (Pending.Passes.single front plain).trans (.single rfl plainName)
  refine .inr ⟨_, [dot, key], _, List.cons_ne_nil _ _, passes, more, fun other follower rest' front' _ => ?_⟩
  show (path.loop (pure left) first left).run other = _
  exact loop_member front' dots named

/-- A level takes an operand of the next tighter one and what it goes on with. -/
theorem local_of_tighter (inner : level ≠ .path) (plain : level ≠ .not)
    (operand : Local (level.tighter.reader atom)) (loop : LocalRounds (level.loop atom)) :
    Local (level.reader atom) := by
  intro start next e reads
  rw [run_reader inner plain] at reads
  obtain ⟨⟨left, middle⟩, one, more⟩ := bind_eq_ok.mp reads
  obtain ⟨taken, some, passes, takes⟩ := operand one
  obtain ⟨later, behind, goesOn⟩ := loop.takes more
  refine ⟨taken ++ later, List.append_ne_nil_of_left_ne_nil some later, passes.trans behind, ?_⟩
  intro other follower rest front meets
  obtain ⟨first, second⟩ := takes.both behind goesOn front meets
  have span : other.span = start.span := by
    rw [List.append_assoc] at front
    rw [Pending.span_of_tokens some front, Pending.span_of_tokens some passes.split]
  rw [run_reader inner plain, first, span]
  exact second

theorem negation_local {operand : Parse Expr} (inner : Local operand) : Local (Expr.negation operand) := by
  intro start next e reads
  induction size : start.tokens.length using Nat.strongRecOn generalizing start e with
  | ind n ih =>
  rw [Expr.run_negation] at reads
  have plainly (front : ∀ ahead ∈ start.tokens.head?, Expr.isNot ahead.token = false)
      (reads : operand.run start = .ok (e, next)) :
      ∃ taken, taken ≠ [] ∧ Pending.Passes taken start next ∧ TakesBefore (Expr.negation operand) e taken next := by
    obtain ⟨taken, some, passes, takes⟩ := inner reads
    refine ⟨taken, some, passes, fun other follower rest tokens meets => ?_⟩
    obtain ⟨ahead, taken, rfl⟩ := List.exists_cons_of_ne_nil some
    have free : Expr.isNot ahead.token = false := front ahead (by rw [passes.split]; rfl)
    rw [Expr.run_negation, tokens]
    dsimp only [List.cons_append]
    rw [if_neg (by rw [free]; exact Bool.false_ne_true)]
    exact takes tokens meets
  split at reads
  · rename_i ended
    split at reads
    · cases reads
    · exact plainly (by simp [ended]) reads
  rename_i first rest front
  split at reads
  · rename_i negates
    obtain ⟨⟨inner, middle⟩, one, more⟩ := bind_eq_ok.mp reads
    obtain ⟨rfl, rfl⟩ := Prod.mk.inj (Except.ok.inj more)
    have shorter : (start.behind first rest).tokens.length < n := by
      rw [← size, front]
      exact Nat.lt_succ_self _
    obtain ⟨taken, some, passes, takes⟩ := ih _ shorter one rfl
    have plain : first.token.isContent = true :=
      Token.isContent_of_eq negates Bool.false_ne_true.symm (fun _ => rfl) rfl rfl
    refine ⟨first :: taken, List.cons_ne_nil _ _, (Pending.Passes.single front plain).trans passes, ?_⟩
    intro other follower rest' tokens meets
    have inside : (Expr.negation operand).run (other.behind first (taken ++ follower :: rest')) = .ok (inner, _) :=
      takes rfl meets
    have last : middle.last = ((other.behind first (taken ++ follower :: rest')).past taken (follower :: rest')).last := by
      rw [passes.past, Pending.past_last some, Pending.past_last some]
    rw [Expr.run_negation, tokens]
    dsimp only [List.cons_append]
    rw [if_pos negates, inside, last]
    rw [Pending.behind_eq_past, Pending.past_past]
    rfl
  · rename_i free
    exact plainly (by simpa [front] using free) reads

/-- An atom is a literal, a name or an expression in parentheses, with path segments behind it. -/
theorem atom_local {inner : Parse Expr} (within : Local inner) : Local (Expr.atom inner) := by
  intro start next e reads
  cases front : start.tokens with
  | nil =>
    rw [Expr.atom, run_bind, run_take_nil front] at reads
    cases reads
  | cons first rest =>
    rw [Expr.run_atom_cons front] at reads
    -- one token, and segments behind it
    have single {left : Expr} (plain : first.token.isContent = true)
        (same : ∀ {other rest}, other.tokens = first :: rest →
          (Expr.atom inner).run other = (Expr.segments first.span left).run (other.behind first rest))
        (more : (Expr.segments first.span left).run (start.behind first rest) = .ok (e, next)) :
        ∃ taken, taken ≠ [] ∧ Pending.Passes taken start next ∧ TakesBefore (Expr.atom inner) e taken next := by
      obtain ⟨later, behind, takes⟩ := segments_localRounds.takes more
      refine ⟨first :: later, List.cons_ne_nil _ _, (Pending.Passes.single front plain).trans behind, ?_⟩
      intro other follower rest' tokens meets
      rw [same tokens]
      rw [Pending.behind_eq_past]
      refine (takes rfl meets).trans ?_
      rw [Pending.past_past]
      rfl
    split at reads
    · rename_i value stands
      have plain : first.token.isContent = true :=
        Token.isContent_of_eq stands (Option.some_ne_none _) (fun _ => rfl) rfl rfl
      exact single plain (fun tokens => by rw [Expr.run_atom_cons tokens, stands]) reads
    rename_i free
    split at reads
    · rename_i name word
      exact single (by rw [word]; rfl) (fun tokens => by rw [Expr.run_atom_cons tokens, free, word]) reads
    · rename_i opens
      obtain ⟨⟨inside, middle⟩, one, more⟩ := bind_eq_ok.mp reads
      obtain ⟨⟨span, behind⟩, closes, more⟩ := bind_eq_ok.mp more
      obtain ⟨taken, some, passes, takes⟩ := within one
      obtain ⟨rest', closed, rfl⟩ := run_expectToken_eq_ok.mp closes
      obtain ⟨later, passesLater, takesLater⟩ := segments_localRounds.takes more
      have opened : Pending.Passes [first] start (start.behind first rest) :=
        .single front (by rw [opens]; rfl)
      have closing : Pending.Passes [⟨.parenClose, span⟩] middle (middle.behind ⟨.parenClose, span⟩ rest') :=
        .single closed rfl
      refine ⟨[first] ++ taken ++ [⟨.parenClose, span⟩] ++ later, by simp,
        ((opened.trans passes).trans closing).trans passesLater, ?_⟩
      intro other follower tail tokens meets
      have tokens : other.tokens = first :: (taken ++ ⟨.parenClose, span⟩ :: (later ++ follower :: tail)) := by
        simpa using tokens
      have inside : inner.run (other.behind first (taken ++ ⟨.parenClose, span⟩ :: (later ++ follower :: tail))) =
          .ok (inside, _) := takes rfl (.inr ⟨⟨.parenClose, span⟩, by rw [closed]; rfl, rfl⟩)
      rw [Expr.run_atom_group tokens opens inside rfl rfl, Pending.span_cons tokens]
      refine (takesLater rfl meets).trans ?_
      simp only [Pending.behind_eq_past, Pending.past_past, List.append_assoc]
    · cases reads

theorem disjunction_local (inner : Local atom) : Local (Expr.disjunction atom) := by
  have filter : Local (filter.reader atom) := local_of_tighter nofun nofun inner filters_localRounds
  have comparison : Local (comparison.reader atom) := local_of_tighter nofun nofun filter (chain_localRounds filter)
  have not : Local (not.reader atom) := negation_local comparison
  have and : Local (and.reader atom) := local_of_tighter nofun nofun not (chain_localRounds not)
  show Local (or.reader atom)
  exact local_of_tighter nofun nofun and (chain_localRounds and)

end Level

namespace Expr

variable {levels : Nat} {start next : Pending} {e : Expr} {taken rest : List Lexeme} {follower : Lexeme}

theorem operand_local (levels : Nat) : Local (operand levels) := by
  induction levels using Nat.strongRecOn with
  | ind levels ih =>
  match levels with
  | 0 => exact fun _ _ _ reads => by cases reads
  | 1 => exact Level.atom_local fun _ _ _ reads => by cases reads
  | levels + 2 => exact Level.atom_local (Level.disjunction_local (ih levels (by omega)))

theorem parse_local (levels : Nat) : Local (parse levels) := by
  cases levels with
  | zero => exact fun _ _ _ reads => by cases reads
  | succ levels => exact Level.disjunction_local (operand_local levels)

theorem run_path_eq_ok :
    (path levels).run start = .ok (e, next) ↔ (operand levels).run start = .ok (e, next) ∧ e.isPath = true := by
  constructor
  · intro reads
    obtain ⟨inner, middle, one, more⟩ := run_bind_eq_ok.mp reads
    split at more
    · rename_i isPath
      obtain ⟨rfl, rfl⟩ := run_pure_eq_ok.mp more
      exact ⟨one, isPath⟩
    · cases more
  · rintro ⟨one, isPath⟩
    refine run_bind_eq_ok.mpr ⟨e, next, one, ?_⟩
    rw [if_pos isPath]
    rfl

theorem path_local (levels : Nat) : Local (path levels) := by
  intro start next e reads
  obtain ⟨one, isPath⟩ := run_path_eq_ok.mp reads
  obtain ⟨taken, some, passes, takes⟩ := operand_local levels one
  exact ⟨taken, some, passes, fun other follower rest front meets => run_path_eq_ok.mpr ⟨takes front meets, isPath⟩⟩

end Expr

namespace Parse

variable {α : Type} {p : Parse α} {a : α} {start next : Pending} {taken rest : List Lexeme} {follower : Lexeme}

theorem Local.reads (locally : Local p) (reads : p.run start = .ok (a, next)) :
    ∃ taken, p.Reads a taken ∧ Pending.Passes taken start next := by
  obtain ⟨taken, -, passes, -⟩ := locally reads
  exact ⟨taken, ⟨start, next, reads, passes.split⟩, passes⟩

/-- What is read from some tokens is read from them wherever they stand in front of a token that closes it. -/
theorem Reads.run (reads : p.Reads a taken) (locally : Local p) (front : start.tokens = taken ++ follower :: rest)
    (closes : follower.token.Closes) : p.run start = .ok (a, start.past taken (follower :: rest)) := by
  obtain ⟨other, next, reads, split⟩ := reads
  obtain ⟨_, -, passes, takes⟩ := locally reads
  obtain rfl := List.append_cancel_right (split.symm.trans passes.split)
  exact takes front (.inl closes)

theorem Reads.inner (reads : p.Reads a taken) (locally : Local p) :
    taken ≠ [] ∧ ∀ lexeme ∈ taken, lexeme.token.isContent = true := by
  obtain ⟨other, next, reads, split⟩ := reads
  obtain ⟨_, some, passes, -⟩ := locally reads
  obtain rfl := List.append_cancel_right (split.symm.trans passes.split)
  exact ⟨some, passes.inner⟩

end Parse

end TextTemplate
