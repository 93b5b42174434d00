import TextTemplate.Proofs.Syntax.Running
import TextTemplate.Proofs.Syntax.Spelling

/-!
Reading an expression gives the tree that its tokens spell. The reader of a level reads an operand of
the next tighter level and then goes on with the operators of its own, one at a time, so that a
spelling takes it up to where it would take the next operator.
-/
namespace TextTemplate

open Parse

theorem Pending.span_cons {start : Pending} {first : Lexeme} {rest : List Lexeme}
    (front : start.tokens = first :: rest) :
    start.span = first.span := by
  rw [span, front]

namespace Level

/-- Reads an expression of a level, given how its atoms are read. -/
def reader (level : Level) (atom : Parse Expr) : Parse Expr :=
  match level with
  | path => atom
  | filter => Expr.filtered atom
  | comparison => Expr.operation Expr.comparison (Expr.filtered atom)
  | not => Expr.negation (Expr.operation Expr.comparison (Expr.filtered atom))
  | and => Expr.operation Expr.andOperator (Expr.negation (Expr.operation Expr.comparison (Expr.filtered atom)))
  | or => Expr.disjunction atom

/-- What the reader of a level does behind its first operand. -/
def loop (level : Level) (atom : Parse Expr) (first : Span) (left : Expr) : Parse Expr :=
  match level with
  | or | and | comparison => Expr.chain level.operator (level.tighter.reader atom) first left
  | not => pure left
  | filter => Expr.filters first left
  | path => Expr.segments first left

/-- Whether a level may go on with the given token. The argument of a filter belongs to it as tightly as
path segments belong to their operand. -/
def takes (level : Level) (token : Token) : Bool :=
  match level with
  | or | and | comparison => (level.operator token).isSome
  | not => false
  | filter => token = .pipe
  | path => token = .dot ∨ token = .colon

/-- No level that is tighter goes on with the token. -/
def Stops (level : Level) (token : Token) : Prop :=
  ∀ other : Level, level.rank < other.rank → other.takes token = false

variable {level : Level} {token : Token} {atom : Parse Expr} {start next : Pending} {first : Span} {left : Expr}
  {follower : Lexeme} {rest : List Lexeme}

theorem stops_tighter (stops : level.Stops token) : level.tighter.Stops token := by
  intro other tight
  refine stops other (Nat.lt_of_le_of_lt ?_ tight)
  cases level <;> decide

theorem takes_tighter (stops : level.Stops token) (inner : level ≠ path) : level.tighter.takes token = false := by
  refine stops level.tighter ?_
  cases level <;> first | decide | exact absurd rfl inner

theorem stops_operator {op : BinaryOp} (operates : level.operator token = some op) : level.Stops token := by
  intro other tight
  cases level with
  | or =>
    simp only [operator, Expr.orOperator] at operates
    split at operates <;> cases operates <;> cases other <;> first | rfl | simp [rank] at tight
  | and =>
    simp only [operator, Expr.andOperator] at operates
    split at operates <;> cases operates <;> cases other <;> first | rfl | simp [rank] at tight
  | comparison =>
    simp only [operator, Expr.comparison] at operates
    split at operates <;> cases operates <;> cases other <;> first | rfl | simp [rank] at tight
  | not | filter | path => cases operates

theorem loop_operator {op : BinaryOp} (operates : level.operator token = some op) :
    level.loop atom first left = Expr.chain level.operator (level.tighter.reader atom) first left := by
  cases level with
  | or | and | comparison => rfl
  | not | filter | path => cases operates

theorem stops_path (token : Token) : path.Stops token := by
  intro other tight
  cases other <;> simp [rank] at tight

theorem stops_pipe : filter.Stops .pipe := by
  intro other tight
  cases other <;> first | rfl | simp [rank] at tight

/-- Behind an operand, the reader of a level stops at a token that the level does not take. -/
theorem loop_stops (front : next.tokens = follower :: rest) (stops : level.takes follower.token = false) :
    (level.loop atom first left).run next = .ok (left, next) := by
  have chain (operator : Expr.Operator) (operand : Parse Expr) (other : (operator follower.token).isSome = false) :
      (Expr.chain operator operand first left).run next = .ok (left, next) := by
    rw [Expr.run_chain, front]
    dsimp only
    cases found : operator follower.token with
    | none => rfl
    | some op =>
      rw [found] at other
      cases other
  cases level with
  | or | and | comparison => exact chain _ _ stops
  | not => rfl
  | filter =>
    rw [loop, Expr.run_filters, front]
    exact if_neg (of_decide_eq_false stops)
  | path =>
    rw [loop, Expr.run_segments, front]
    exact if_neg fun dots => of_decide_eq_false stops (.inl dots)

/-- The reader of a level reads one operand of the next tighter one before it goes on. -/
theorem run_reader (inner : level ≠ path) (plain : level ≠ not) :
    (level.reader atom).run start = (level.tighter.reader atom).run start >>= fun (left, next) =>
      (level.loop atom start.span left).run next := by
  have operation (operator : Expr.Operator) (operand : Parse Expr) :
      (Expr.operation operator operand).run start = operand.run start >>= fun (left, next) =>
        (Expr.chain operator operand start.span left).run next := by
    rw [Expr.operation, run_bind, run_nextSpan]
    exact run_bind ..
  cases level with
  | or | and | comparison => exact operation ..
  | filter =>
    rw [reader, Expr.filtered, run_bind, run_nextSpan]
    exact run_bind ..
  | not => exact absurd rfl plain
  | path => exact absurd rfl inner

/-- One more path segment. -/
theorem loop_member {dot key : Lexeme} {name : String} (front : next.tokens = dot :: key :: rest)
    (dots : dot.token = .dot) (named : Expr.segmentName key.token = some name) :
    (path.loop atom first left).run next =
      (path.loop atom first (.member left name (first.upTo key.span))).run (next.behind key rest) := by
  have step : (expect "path segment" Expr.segmentName).run (next.behind dot (key :: rest)) =
      .ok ((name, key.span), next.behind key rest) :=
    run_expect_eq_ok.mpr ⟨key, rest, rfl, named, rfl, rfl⟩
  rw [loop, Expr.run_segments, front]
  dsimp only
  rw [if_pos dots, step]
  rfl

/-- One more filter, with no argument. -/
theorem loop_filter {pipe word : Lexeme} {name : String} (front : next.tokens = pipe :: word :: follower :: rest)
    (pipes : pipe.token = .pipe) (named : word.token = .word name) (other : follower.token ≠ .colon) :
    (filter.loop atom first left).run next =
      (filter.loop atom first (.filter name left none (first.upTo word.span))).run
        (next.behind word (follower :: rest)) := by
  have step : Expr.filterStep.run (next.behind pipe (word :: follower :: rest)) =
      .ok ((name, none), next.behind word (follower :: rest)) := by
    rw [Expr.run_filterStep, run_expect_eq_ok.mpr ⟨word, _, rfl, congrArg Expr.wordName named, rfl, rfl⟩]
    show (skip .colon).run _ >>= _ = _
    rw [run_skip_cons rfl, if_neg other]
    rfl
  rw [loop, Expr.run_filters, front]
  dsimp only
  rw [if_pos pipes, step]
  rfl

/-- One more filter, with an argument. -/
theorem loop_filterWith {pipe word colon given : Lexeme} {name argument : String}
    (front : next.tokens = pipe :: word :: colon :: given :: rest) (pipes : pipe.token = .pipe)
    (named : word.token = .word name) (colons : colon.token = .colon)
    (gives : Expr.argumentText given.token = some argument) :
    (filter.loop atom first left).run next =
      (filter.loop atom first (.filter name left (some argument) (first.upTo given.span))).run
        (next.behind given rest) := by
  have step : Expr.filterStep.run (next.behind pipe (word :: colon :: given :: rest)) =
      .ok ((name, some argument), next.behind given rest) := by
    rw [Expr.run_filterStep, run_expect_eq_ok.mpr ⟨word, _, rfl, congrArg Expr.wordName named, rfl, rfl⟩]
    show (skip .colon).run _ >>= _ = _
    rw [run_skip_cons rfl, if_pos colons]
    show (expect "filter argument" Expr.argumentText).run _ >>= _ = _
    rw [run_expect_eq_ok.mpr ⟨given, _, rfl, gives, rfl, rfl⟩]
    rfl
  rw [loop, Expr.run_filters, front]
  dsimp only
  rw [if_pos pipes, step]
  rfl

/-- One more operator and its right operand. -/
theorem loop_binary {op : BinaryOp} {mark : Lexeme} {right : Expr} {last : Pending}
    (front : next.tokens = mark :: rest) (operates : level.operator mark.token = some op)
    (reads : (level.tighter.reader atom).run (next.behind mark rest) = .ok (right, last)) :
    (level.loop atom first left).run next =
      (level.loop atom first (.binary op left right (first.upTo last.last))).run last := by
  rw [loop_operator operates, loop_operator operates, Expr.run_chain, front]
  dsimp only
  rw [operates]
  dsimp only
  rw [reads]
  rfl

end Level

namespace Expr

variable {nesting levels : Nat} {level : Level} {e : Expr} {spelling : List Token} {start : Pending}
  {lexemes rest : List Lexeme} {follower : Lexeme}

theorem run_atom_group {inner : Parse Expr} {opening closing : Lexeme} {middle : Pending} {within : List Lexeme}
    (front : start.tokens = opening :: within) (opens : opening.token = .parenOpen)
    (reads : inner.run (start.behind opening within) = .ok (e, middle)) (behind : middle.tokens = closing :: rest)
    (closes : closing.token = .parenClose) :
    (atom inner).run start = (segments start.span e).run (middle.behind closing rest) := by
  have closed : (expectToken "`)`" .parenClose).run middle = .ok (closing.span, middle.behind closing rest) := by
    obtain ⟨_, span⟩ := closing
    obtain rfl := closes
    exact run_expectToken_eq_ok.mpr ⟨_, behind, rfl⟩
  rw [run_atom_cons front, opens, Pending.span_cons front]
  show inner.run _ >>= _ = _
  rw [reads]
  show (expectToken "`)`" .parenClose).run middle >>= _ = _
  rw [closed]
  rfl

/-- The reader of a level passes some tokens, wherever they stand in front of a token that no tighter
level goes on with, and goes on behind them with a tree. -/
structure Passes (levels : Nat) (level : Level) (e : Expr) (spelling : List Token) : Prop where
  reads {start : Pending} {lexemes rest : List Lexeme} {follower : Lexeme} : lexemes.map (·.token) = spelling →
    start.tokens = lexemes ++ follower :: rest → level.Stops follower.token →
    ∃ next left, next.tokens = follower :: rest ∧ left.bare = e.bare ∧
      (level.reader (operand levels)).run start = (level.loop (operand levels) start.span left).run next

namespace Passes

variable {tokens before behind : List Token} {token : Token} {left right : Expr} {word argument : String}
  {span : Span} {value : Value} {op : BinaryOp}

theorem name (named : IsName word) : Passes (levels + 1) .path (.var word span) [.word word] := by
  refine ⟨fun {start lexemes rest follower} same front _ => ?_⟩
  obtain ⟨first, _, rfl, token, ended⟩ := List.map_eq_cons_iff.mp same
  obtain rfl := List.map_eq_nil_iff.mp ended
  refine ⟨start.behind first (follower :: rest), .var word first.span, rfl, rfl, ?_⟩
  rw [Level.reader, operand, run_atom_cons front, token, named.1, Pending.span_cons front]
  rfl

theorem literal (stands : literal? token = some value) : Passes (levels + 1) .path (.const value span) [token] := by
  refine ⟨fun {start lexemes rest follower} same front _ => ?_⟩
  obtain ⟨first, _, rfl, stood, ended⟩ := List.map_eq_cons_iff.mp same
  obtain rfl := List.map_eq_nil_iff.mp ended
  refine ⟨start.behind first (follower :: rest), .const _ first.span, rfl, rfl, ?_⟩
  rw [Level.reader, operand, run_atom_cons front, stood, stands, Pending.span_cons front]
  rfl

/-- A pair of parentheses takes one level for the expression inside and one for its operands. -/
theorem group (passes : Passes levels .or e tokens) :
    Passes (levels + 2) .path e (.parenOpen :: (tokens ++ [.parenClose])) := by
  refine ⟨fun {start lexemes rest follower} same front _ => ?_⟩
  obtain ⟨opening, _, rfl, opens, tail⟩ := List.map_eq_cons_iff.mp same
  obtain ⟨inner, _, rfl, sameInner, tail⟩ := List.map_eq_append_iff.mp tail
  obtain ⟨closing, _, rfl, closes, ended⟩ := List.map_eq_cons_iff.mp tail
  obtain rfl := List.map_eq_nil_iff.mp ended
  have front' : start.tokens = opening :: (inner ++ closing :: follower :: rest) := by simpa using front
  have ends (other : Level) : other.takes closing.token = false := by
    rw [closes]
    cases other <;> rfl
  have within : (start.behind opening (inner ++ closing :: follower :: rest)).tokens =
    inner ++ closing :: follower :: rest := rfl
  obtain ⟨middle, left, behind, bare, reads⟩ := passes.reads sameInner within fun other _ => ends other
  rw [Level.loop_stops behind (ends .or)] at reads
  have inside : (parse (levels + 1)).run (start.behind opening (inner ++ closing :: follower :: rest)) =
      .ok (left, middle) := reads
  exact ⟨middle.behind closing (follower :: rest), left, rfl, bare,
    run_atom_group front' opens inside behind closes⟩

theorem member (passes : Passes levels .path e tokens) (segment : segmentName token = some word) :
    Passes levels .path (.member e word span) (tokens ++ [.dot, token]) := by
  refine ⟨fun {start lexemes rest follower} same front _ => ?_⟩
  obtain ⟨inner, _, rfl, sameInner, tail⟩ := List.map_eq_append_iff.mp same
  obtain ⟨dot, _, rfl, dots, tail⟩ := List.map_eq_cons_iff.mp tail
  obtain ⟨key, _, rfl, keys, ended⟩ := List.map_eq_cons_iff.mp tail
  obtain rfl := List.map_eq_nil_iff.mp ended
  have front' : start.tokens = inner ++ dot :: (key :: follower :: rest) := by simpa using front
  obtain ⟨middle, left, behind, bare, reads⟩ := passes.reads sameInner front' (Level.stops_path _)
  refine ⟨middle.behind key (follower :: rest), .member left word (start.span.upTo key.span), rfl,
    congrArg (Expr.member · word {}) bare, ?_⟩
  rw [reads, Level.loop_member behind dots (keys ▸ segment)]

theorem filter (passes : Passes levels .filter e tokens) :
    Passes levels .filter (.filter word e none span) (tokens ++ [.pipe, .word word]) := by
  refine ⟨fun {start lexemes rest follower} same front stops => ?_⟩
  obtain ⟨inner, _, rfl, sameInner, tail⟩ := List.map_eq_append_iff.mp same
  obtain ⟨pipe, _, rfl, pipes, tail⟩ := List.map_eq_cons_iff.mp tail
  obtain ⟨called, _, rfl, named, ended⟩ := List.map_eq_cons_iff.mp tail
  obtain rfl := List.map_eq_nil_iff.mp ended
  have front' : start.tokens = inner ++ pipe :: (called :: follower :: rest) := by simpa using front
  have other : follower.token ≠ .colon := fun colon =>
    of_decide_eq_false (stops .path (by decide)) (.inr colon)
  obtain ⟨middle, left, behind, bare, reads⟩ := passes.reads sameInner front' (pipes ▸ Level.stops_pipe)
  refine ⟨middle.behind called (follower :: rest), .filter word left none (start.span.upTo called.span), rfl,
    congrArg (Expr.filter word · none {}) bare, ?_⟩
  rw [reads, Level.loop_filter behind pipes named other]

theorem filterWith (passes : Passes levels .filter e tokens) (means : argumentText token = some argument) :
    Passes levels .filter (.filter word e (some argument) span)
      (tokens ++ [.pipe, .word word, .colon, token]) := by
  refine ⟨fun {start lexemes rest follower} same front _ => ?_⟩
  obtain ⟨inner, _, rfl, sameInner, tail⟩ := List.map_eq_append_iff.mp same
  obtain ⟨pipe, _, rfl, pipes, tail⟩ := List.map_eq_cons_iff.mp tail
  obtain ⟨called, _, rfl, named, tail⟩ := List.map_eq_cons_iff.mp tail
  obtain ⟨colon, _, rfl, colons, tail⟩ := List.map_eq_cons_iff.mp tail
  obtain ⟨given, _, rfl, gives, ended⟩ := List.map_eq_cons_iff.mp tail
  obtain rfl := List.map_eq_nil_iff.mp ended
  have front' : start.tokens = inner ++ pipe :: (called :: colon :: given :: follower :: rest) := by
    simpa using front
  obtain ⟨middle, left, behind, bare, reads⟩ := passes.reads sameInner front' (pipes ▸ Level.stops_pipe)
  refine ⟨middle.behind given (follower :: rest), .filter word left (some argument) (start.span.upTo given.span),
    rfl, congrArg (Expr.filter word · (some argument) {}) bare, ?_⟩
  rw [reads, Level.loop_filterWith behind pipes named colons (gives ▸ means)]

theorem not (negates : isNot token = true) (passes : Passes levels .not e tokens) :
    Passes levels .not (.not e span) (token :: tokens) := by
  refine ⟨fun {start lexemes rest follower} same front stops => ?_⟩
  obtain ⟨bang, inner, rfl, bangs, sameInner⟩ := List.map_eq_cons_iff.mp same
  have front' : (start.behind bang (inner ++ follower :: rest)).tokens = inner ++ follower :: rest := rfl
  obtain ⟨middle, left, behind, bare, reads⟩ := passes.reads sameInner front' stops
  refine ⟨middle, .not left (bang.span.upTo middle.last), behind, congrArg (Expr.not · {}) bare, ?_⟩
  have inside : (negation (operation comparison (filtered (Expr.operand levels)))).run
      (start.behind bang (inner ++ follower :: rest)) = .ok (left, middle) := reads
  rw [Level.reader, run_negation, front]
  dsimp only [List.cons_append]
  rw [if_pos (bangs ▸ negates), inside]
  rfl

theorem binary (operates : level.operator token = some op) (passesLeft : Passes levels level left before)
    (passesRight : Passes levels level.tighter right behind) :
    Passes levels level (.binary op left right span) (before ++ token :: behind) := by
  refine ⟨fun {start lexemes rest follower} same front stops => ?_⟩
  obtain ⟨taken, _, rfl, sameLeft, tail⟩ := List.map_eq_append_iff.mp same
  obtain ⟨mark, later, rfl, marks, sameRight⟩ := List.map_eq_cons_iff.mp tail
  subst marks
  have front' : start.tokens = taken ++ mark :: (later ++ follower :: rest) := by simpa using front
  have inner : level ≠ .path := by
    rintro rfl
    cases operates
  obtain ⟨middle, first, there, bareFirst, reads⟩ := passesLeft.reads sameLeft front' (Level.stops_operator operates)
  have front'' : (middle.behind mark (later ++ follower :: rest)).tokens = later ++ follower :: rest := rfl
  obtain ⟨last, second, ends, bareSecond, readsSecond⟩ := passesRight.reads sameRight front'' (Level.stops_tighter stops)
  rw [Level.loop_stops ends (Level.takes_tighter stops inner)] at readsSecond
  refine ⟨last, .binary op first second (start.span.upTo last.last), ends, ?_, ?_⟩
  · rw [Expr.bare, Expr.bare, bareFirst, bareSecond]
  · rw [reads, Level.loop_binary there operates readsSecond]

/-- A level goes on behind what the next tighter level passes. A tighter spelling is no negation. -/
theorem loosen (tight : Spelled nesting level.tighter e tokens) (passes : Passes levels level.tighter e tokens) :
    Passes levels level e tokens := by
  refine ⟨fun {start lexemes rest follower} same front stops => ?_⟩
  by_cases inner : level = .path
  · subst inner
    exact passes.reads same front stops
  obtain ⟨middle, left, behind, bare, reads⟩ := passes.reads same front (Level.stops_tighter stops)
  rw [Level.loop_stops behind (Level.takes_tighter stops inner)] at reads
  refine ⟨middle, left, behind, bare, ?_⟩
  by_cases plain : level = .not
  · subst plain
    obtain ⟨token, _, rfl, plain⟩ := tight.head rfl
    obtain ⟨first, lexemes, rfl, token, -⟩ := List.map_eq_cons_iff.mp same
    rw [Level.reader, run_negation, front]
    dsimp only [List.cons_append]
    rw [if_neg (by rw [token, plain]; decide)]
    exact reads
  · rw [Level.run_reader inner plain, reads]
    rfl

end Passes

/-- The reader of a level passes every spelling of it. -/
theorem Spelled.passes (spelled : Spelled nesting level e spelling) (enough : 2 * nesting < levels) :
    Passes levels level e spelling := by
  induction spelled generalizing levels with
  | name named =>
    obtain ⟨levels, rfl⟩ := Nat.exists_eq_add_of_lt enough
    exact .name named
  | literal stands =>
    obtain ⟨levels, rfl⟩ := Nat.exists_eq_add_of_lt enough
    exact .literal stands
  | group _ ih =>
    obtain ⟨levels, rfl⟩ : ∃ more, levels = more + 2 := ⟨levels - 2, by omega⟩
    exact .group (ih (by omega))
  | member _ segment ih => exact .member (ih enough) segment
  | filter _ ih => exact .filter (ih enough)
  | filterWith _ means ih => exact .filterWith (ih enough) means
  | not negates _ ih => exact .not negates (ih enough)
  | binary operates _ _ first second => exact .binary operates (first enough) (second enough)
  | loosen tight ih => exact .loosen tight (ih enough)

end Expr

end TextTemplate
