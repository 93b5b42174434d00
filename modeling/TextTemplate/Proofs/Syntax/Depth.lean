import TextTemplate.Proofs.Syntax.Spans

/-!
How deeply conditionals and parentheses stand in one another, counted on the tokens alone, and what the limit
of the readers has to do with it. A reader with a higher limit reads the same, unless the lower one is met; then
the tokens are nested that deep. What is read is nested less deep. No negation is counted.
-/
namespace TextTemplate

/-- What stands open in front of a token: conditionals, and the parentheses of its tag. The tags of a section are
passed over. -/
structure Depth where
  conditionals : Nat := 0
  parens : Nat := 0
  inSection : Bool := false
  /-- Whether a tag starts right in front of the token. -/
  opening : Bool := false

namespace Depth

/-- How many levels are taken. Parentheses take two, for the operand that they are and for the expression in them. -/
def levels (depth : Depth) : Nat :=
  depth.conditionals + 2 * depth.parens

/-- What stands open behind the first word of a tag. -/
def keyword (depth : Depth) : String → Depth
  | "if" => { depth with conditionals := depth.conditionals + 1 }
  | "endif" => { depth with conditionals := depth.conditionals - 1 }
  | "section" => { depth with inSection := true }
  | _ => depth

/-- What stands open behind a token. -/
def behind (depth : Depth) (token : Token) : Depth :=
  if depth.inSection then
    { depth with
      inSection := !(depth.opening && token == .word "endsection")
      opening := token == .tagStart }
  else
    match token with
    | .tagStart => { depth with parens := 0, opening := true }
    | .parenOpen => { depth with parens := depth.parens + 1, opening := false }
    | .parenClose => { depth with parens := depth.parens - 1, opening := false }
    | .word name => { (if depth.opening then depth.keyword name else depth) with opening := false }
    | _ => { depth with opening := false }

/-- What stands open behind some tokens. -/
def past (depth : Depth) (taken : List Lexeme) : Depth :=
  taken.foldl (fun depth lexeme => depth.behind lexeme.token) depth

/-- The most levels that are taken somewhere among some tokens. -/
def deepest (depth : Depth) : List Lexeme → Nat
  | [] => depth.levels
  | first :: rest => max depth.levels ((depth.behind first.token).deepest rest)

variable {depth : Depth} {first : Lexeme} {taken later rest : List Lexeme}

@[simp]
theorem past_nil : depth.past [] = depth := rfl

@[simp]
theorem past_cons : depth.past (first :: rest) = (depth.behind first.token).past rest := rfl

@[simp]
theorem past_append : depth.past (taken ++ later) = (depth.past taken).past later :=
  List.foldl_append ..

theorem levels_le_deepest : depth.levels ≤ depth.deepest taken := by
  cases taken with
  | nil => exact Nat.le_refl _
  | cons first rest => exact Nat.le_max_left ..

theorem deepest_append : depth.deepest (taken ++ later) = max (depth.deepest taken) ((depth.past taken).deepest later) := by
  induction taken generalizing depth with
  | nil => exact (Nat.max_eq_right levels_le_deepest).symm
  | cons first taken ih =>
    rw [List.cons_append, deepest, deepest, ih, past_cons, Nat.max_assoc]

theorem levels_past_le : (depth.past taken).levels ≤ depth.deepest taken := by
  have whole : depth.deepest (taken ++ []) = max (depth.deepest taken) (depth.past taken).levels := deepest_append
  rw [List.append_nil] at whole
  rw [whole]
  exact Nat.le_max_right ..

/-- The place behind the first token of a tag, in some conditionals and parentheses, or in the text around tags. -/
def within (conditionals parens : Nat) : Depth :=
  { conditionals, parens }

/-- The place right behind the start of a tag. -/
def atTag (conditionals : Nat) : Depth :=
  { conditionals, opening := true }

/-- The place in a section, behind the keyword of its tag. -/
def inBody (conditionals : Nat) : Depth :=
  { conditionals, inSection := true }

end Depth

/-- Whether a token opens and closes nothing where it does not start a tag. -/
def Token.isPlain : Token → Bool
  | .tagStart | .parenOpen | .parenClose => false
  | _ => true

/-- Tokens with a meaning that those have not which open and close something. -/
theorem Token.isPlain_of_means {α : Type} {token : Token} {a : α} (meaning : Token → Option α)
    (tagStart : meaning .tagStart = none) (parenOpen : meaning .parenOpen = none)
    (parenClose : meaning .parenClose = none) (means : meaning token = some a) : token.isPlain = true := by
  cases token with
  | tagStart => cases tagStart.symm.trans means
  | parenOpen => cases parenOpen.symm.trans means
  | parenClose => cases parenClose.symm.trans means
  | _ => rfl

namespace Parse

variable {α β : Type} {limit : Nat} {depth : Depth} {Q : α → Pending → Depth → Prop} {R : β → Pending → Depth → Prop}
  {start next : Pending} {first : Lexeme} {taken rest : List Lexeme} {p q : Parse α} {f g : α → Parse β}
  {conditionals parens : Nat} {token : Token}

/-- What becomes of a reader with a limit, and of the same one with a higher limit. Both read the same, from tokens
that are nested less deep than the limit, or both fail alike, or the limit is met where the tokens are nested so. -/
inductive Guarded (limit : Nat) (depth : Depth) (Q : α → Pending → Depth → Prop) (start : Pending) :
    (low high : Except Misread (α × Pending)) → Prop where
  | read {a : α} {next : Pending} (taken : List Lexeme) :
    start.tokens = taken ++ next.tokens → depth.deepest taken < limit → Q a next (depth.past taken) →
    Guarded limit depth Q start (.ok (a, next)) (.ok (a, next))
  | failed {misread : Misread} : Guarded limit depth Q start (.error misread) (.error misread)
  | tooNested {line : Nat} {rest : List Lexeme} {high : Except Misread (α × Pending)} (taken : List Lexeme) :
    start.tokens = taken ++ rest → limit ≤ depth.deepest taken + 1 →
    Guarded limit depth Q start (.error ⟨.tooNested, line⟩) high

/-- A reader with a limit and the same one with a higher limit, in front of tokens at some depth. -/
def Guards (limit : Nat) (depth : Depth) (Q : α → Pending → Depth → Prop) (p q : Parse α) : Prop :=
  ∀ start, Guarded limit depth Q start (p.run start) (q.run start)

/-- Readers behind which as much stands open as in front of them. -/
abbrev Steady (limit : Nat) (depth : Depth) (p q : Parse α) : Prop :=
  Guards limit depth (fun _ _ after => after = depth) p q

/-- What is read behind some tokens is read from all of them. -/
theorem Guarded.prepend {x y : Except Misread (α × Pending)} (split : start.tokens = taken ++ next.tokens)
    (low : (depth.past taken).levels < limit → depth.deepest taken < limit)
    (guarded : Guarded limit (depth.past taken) Q next x y) : Guarded limit depth Q start x y := by
  cases guarded with
  | read further later shallow post =>
    refine .read (taken ++ further) (by rw [split, later, List.append_assoc]) ?_ (by rwa [Depth.past_append])
    rw [Depth.deepest_append]
    exact Nat.max_lt.mpr ⟨low (Nat.lt_of_le_of_lt Depth.levels_le_deepest shallow), shallow⟩
  | failed => exact .failed
  | tooNested further later deep =>
    refine .tooNested (taken ++ further) (by rw [split, later, List.append_assoc]) (Nat.le_trans deep ?_)
    rw [Depth.deepest_append]
    exact Nat.succ_le_succ (Nat.le_max_right ..)

theorem Guarded.bind {x y : Except Misread (α × Pending)} {f g : α × Pending → Except Misread (β × Pending)}
    (guarded : Guarded limit depth Q start x y)
    (rest : ∀ a next after, x = .ok (a, next) → Q a next after → after.levels < limit →
      Guarded limit after R next (f (a, next)) (g (a, next))) :
    Guarded limit depth R start (x >>= f) (y >>= g) := by
  cases guarded with
  | read taken split shallow post =>
    have known := Nat.lt_of_le_of_lt Depth.levels_past_le shallow
    exact (rest _ _ _ rfl post known).prepend split fun _ => shallow
  | failed => exact .failed
  | tooNested taken split deep => exact .tooNested taken split deep

/-- What is read behind a reader that always ends at the same depth. -/
theorem Guarded.follow {behind : Depth} {x y : Except Misread (α × Pending)}
    {f g : α × Pending → Except Misread (β × Pending)}
    (guarded : Guarded limit depth (fun _ _ after => after = behind) start x y)
    (rest : ∀ a next, x = .ok (a, next) → behind.levels < limit →
      Guarded limit behind R next (f (a, next)) (g (a, next))) :
    Guarded limit depth R start (x >>= f) (y >>= g) := by
  refine guarded.bind fun a next after reads same known => ?_
  subst same
  exact rest a next reads known

/-- A token behind which no less stands open goes in front of what is read. -/
theorem Guarded.cons {x y : Except Misread (α × Pending)} (front : start.tokens = first :: rest)
    (opens : depth.levels ≤ (depth.behind first.token).levels)
    (guarded : Guarded limit (depth.behind first.token) Q (start.behind first rest) x y) :
    Guarded limit depth Q start x y := by
  have split : start.tokens = [first] ++ (start.behind first rest).tokens := front
  refine .prepend split (fun known => ?_) guarded
  exact Nat.max_lt.mpr ⟨Nat.lt_of_le_of_lt opens known, known⟩

/-- A value that takes no tokens. -/
theorem Guarded.pure {a : α} (known : depth.levels < limit) (post : Q a start depth) :
    Guarded limit depth Q start (.ok (a, start)) (.ok (a, start)) :=
  .read [] rfl known post

/-- What a loop does where its tokens end. -/
theorem Guarded.ended {a : α} (known : depth.levels < limit) (post : Q a start depth) :
    Guarded limit depth Q start
      (match start.problem with
      | some problem => .error (start.misread problem)
      | none => .ok (a, start))
      (match start.problem with
      | some problem => .error (start.misread problem)
      | none => .ok (a, start)) := by
  cases start.problem with
  | none => exact .pure known post
  | some problem => exact .failed

/-- A loop is guarded if each round is that goes on with fewer tokens. -/
theorem guards_loop {ι : Type} {loop loop' : ι → Parse α}
    (round : ∀ {i start},
      (∀ {j next}, next.size < start.size → Guarded limit depth Q next ((loop j).run next) ((loop' j).run next)) →
      Guarded limit depth Q start ((loop i).run start) ((loop' i).run start)) (i : ι) :
    Guards limit depth Q (loop i) (loop' i) := by
  intro start
  induction size : start.size using Nat.strongRecOn generalizing start i with
  | ind n ih => exact round fun shorter => ih _ (by omega) _ _ rfl

theorem guards_rounds
    (round : ∀ {start}, (∀ {next}, next.size < start.size → Guarded limit depth Q next (p.run next) (q.run next)) →
      Guarded limit depth Q start (p.run start) (q.run start)) :
    Guards limit depth Q p q := by
  intro start
  induction size : start.size using Nat.strongRecOn generalizing start with
  | ind n ih => exact round fun shorter => ih _ (by omega) _ rfl

theorem Guards.bind (guards : Guards limit depth Q p q)
    (rest : ∀ a next after, Q a next after → after.levels < limit →
      Guarded limit after R next ((f a).run next) ((g a).run next)) :
    Guards limit depth R (p >>= f) (q >>= g) := by
  intro start
  rw [run_bind, run_bind]
  exact (guards start).bind fun a next after _ => rest a next after

theorem Guards.follow {behind : Depth} (guards : Guards limit depth (fun _ _ after => after = behind) p q)
    (rest : ∀ a, behind.levels < limit → Guards limit behind R (f a) (g a)) :
    Guards limit depth R (p >>= f) (q >>= g) := by
  intro start
  rw [run_bind, run_bind]
  exact (guards start).follow fun a next _ known => rest a known next

theorem steady_pure (known : depth.levels < limit) (a : α) : Steady limit depth (pure a) (pure a) :=
  fun _ => .pure known rfl

theorem guards_fail (problem : SyntaxProblem) : Guards limit depth Q (fail problem) (fail problem) :=
  fun _ => .failed

/-- A limit that is met at once. -/
theorem guards_tooNested (deep : limit ≤ depth.levels + 1) : Guards limit depth Q (fail .tooNested) q :=
  fun _ => .tooNested [] rfl deep

theorem steady_pending (known : depth.levels < limit) : Steady limit depth pending pending :=
  fun _ => .pure known rfl

theorem steady_spanFrom (known : depth.levels < limit) (first : Span) :
    Steady limit depth (spanFrom first) (spanFrom first) :=
  fun _ => .pure known rfl

theorem steady_peek (known : depth.levels < limit) : Steady limit depth peek peek := by
  intro start
  rw [run_peek]
  cases ahead start with
  | error misread => exact .failed
  | ok token => exact .pure known rfl

/-- In a tag, a plain token leaves everything open that is. -/
theorem behind_plain (conditionals parens : Nat) (plain : token.isPlain = true) :
    (Depth.within conditionals parens).behind token = .within conditionals parens := by
  cases token with
  | tagStart | parenOpen | parenClose => cases plain
  | _ => rfl

theorem Guarded.plain {x y : Except Misread (α × Pending)} (front : start.tokens = first :: rest)
    (plain : first.token.isPlain = true)
    (guarded : Guarded limit (.within conditionals parens) Q (start.behind first rest) x y) :
    Guarded limit (.within conditionals parens) Q start x y := by
  have same := behind_plain conditionals parens plain
  refine .cons front (Nat.le_of_eq (congrArg Depth.levels same.symm)) ?_
  rwa [same]

theorem steady_expect {meaning : Token → Option α} (known : (Depth.within conditionals parens).levels < limit)
    (expected : String) (plain : ∀ token a, meaning token = some a → token.isPlain = true) :
    Steady limit (.within conditionals parens) (expect expected meaning) (expect expected meaning) := by
  intro start
  rw [run_expect]
  cases front : start.tokens with
  | nil =>
    rw [run_take_nil front]
    exact .failed
  | cons first rest =>
    rw [run_take_cons front]
    dsimp only [bind, Except.bind]
    cases means : meaning first.token with
    | none => exact .failed
    | some a => exact .plain front (plain _ a means) (.pure known rfl)

theorem isPlain_of_isToken {other : Token} {a : Unit} (plain : token.isPlain = true)
    (means : isToken token other = some a) : other.isPlain = true := by
  unfold isToken at means
  split at means
  · rename_i same
    rwa [same]
  · cases means

theorem steady_expectToken (known : (Depth.within conditionals parens).levels < limit) (expected : String)
    (plain : token.isPlain = true) :
    Steady limit (.within conditionals parens) (expectToken expected token) (expectToken expected token) :=
  (steady_expect known expected fun _ _ => isPlain_of_isToken plain).follow fun _ known => steady_pure known _

theorem steady_skip (known : (Depth.within conditionals parens).levels < limit) (plain : token.isPlain = true) :
    Steady limit (.within conditionals parens) (skip token) (skip token) := by
  intro start
  cases front : start.tokens with
  | nil =>
    rw [skip, run_bind, run_peek, ahead, front]
    cases start.problem with
    | some problem => exact .failed
    | none => exact .pure known rfl
  | cons first rest =>
    rw [run_skip_cons front]
    split
    · rename_i same
      exact .plain front (by rw [same, plain]) (.pure known rfl)
    · exact .pure known rfl

/-- A parenthesis that closes. -/
theorem closes_guards (known : (Depth.within conditionals (parens + 1)).levels < limit) (expected : String) :
    Guards limit (.within conditionals (parens + 1)) (fun _ _ after => after = .within conditionals parens)
      (expectToken expected .parenClose) (expectToken expected .parenClose) := by
  intro start
  cases reads : (expectToken expected .parenClose).run start with
  | error misread => exact .failed
  | ok result =>
    obtain ⟨span, next⟩ := result
    obtain ⟨rest, front, rfl⟩ := run_expectToken_eq_ok.mp reads
    refine .read [⟨.parenClose, span⟩] front (Nat.max_lt.mpr ⟨known, ?_⟩) rfl
    exact Nat.lt_of_le_of_lt (Nat.le_add_right _ 2) known

end Parse

namespace Expr

open Parse

variable {limit conditionals parens : Nat} {start : Pending} {first : Span} {left : Expr} {token : Token}
  {p q : Parse Expr}

theorem isPlain_of_operator {level : Level} {op : BinaryOp} (operates : level.operator token = some op) :
    token.isPlain = true := by
  refine Token.isPlain_of_means level.operator ?_ ?_ ?_ operates <;> cases level <;> rfl

theorem isPlain_of_isNot (negates : isNot token = true) : token.isPlain = true := by
  cases token with
  | tagStart | parenOpen | parenClose => cases negates
  | _ => rfl

theorem chain_steady (level : Level) (steady : Steady limit (.within conditionals parens) p q)
    (known : (Depth.within conditionals parens).levels < limit) :
    Steady limit (.within conditionals parens) (chain level.operator p first left)
      (chain level.operator q first left) := by
  refine guards_loop (fun {left start} again => ?_) left
  rw [run_chain, run_chain]
  cases front : start.tokens with
  | nil => exact .ended known rfl
  | cons lexeme rest =>
    dsimp only
    cases operates : level.operator lexeme.token with
    | none => exact .pure known rfl
    | some op =>
      refine .plain front (isPlain_of_operator operates) ((steady _).follow fun right next reads _ => ?_)
      exact again (Nat.lt_of_le_of_lt (size_le_of_run reads) (Pending.behind_size front))

/-- Operands with operators of a level between them. -/
theorem operation_steady (level : Level) (steady : Steady limit (.within conditionals parens) p q) :
    Steady limit (.within conditionals parens) (operation level.operator p) (operation level.operator q) := by
  intro start
  rw [operation, operation, run_bind, run_bind]
  have operands : Steady limit (.within conditionals parens) (p >>= chain level.operator p start.span)
      (q >>= chain level.operator q start.span) :=
    steady.follow fun left known => chain_steady level steady known
  exact operands start

/-- However many negations stand in front of an operand, they take no level. -/
theorem negation_steady (steady : Steady limit (.within conditionals parens) p q) :
    Steady limit (.within conditionals parens) (negation p) (negation q) := by
  refine guards_rounds fun {start} again => ?_
  rw [run_negation, run_negation]
  cases front : start.tokens with
  | nil =>
    cases start.problem with
    | some problem => exact .failed
    | none => exact steady start
  | cons lexeme rest =>
    dsimp only
    split
    · rename_i negates
      refine .plain front (isPlain_of_isNot negates)
        ((again (Pending.behind_size front)).follow fun inner next _ known => ?_)
      exact .pure known rfl
    · exact steady start

theorem filterStep_steady (known : (Depth.within conditionals parens).levels < limit) :
    Steady limit (.within conditionals parens) filterStep filterStep := by
  refine (steady_expect known _ fun _ _ => Token.isPlain_of_means wordName rfl rfl rfl).follow fun _ known => ?_
  refine (steady_skip known rfl).follow fun _ known => ?_
  split
  · have argument := steady_expect known "filter argument" fun _ _ => Token.isPlain_of_means argumentText rfl rfl rfl
    exact argument.follow fun _ known => steady_pure known _
  · exact steady_pure known _

theorem filters_steady (known : (Depth.within conditionals parens).levels < limit) :
    Steady limit (.within conditionals parens) (filters first left) (filters first left) := by
  refine guards_loop (fun {left start} again => ?_) left
  rw [run_filters]
  cases front : start.tokens with
  | nil => exact .ended known rfl
  | cons lexeme rest =>
    dsimp only
    split
    · rename_i pipes
      refine .plain front (by rw [pipes]; rfl) ((filterStep_steady known _).follow fun step next reads _ => ?_)
      exact again (Nat.lt_of_le_of_lt (size_le_of_run reads) (Pending.behind_size front))
    · exact .pure known rfl

theorem segments_steady (known : (Depth.within conditionals parens).levels < limit) :
    Steady limit (.within conditionals parens) (segments first left) (segments first left) := by
  refine guards_loop (fun {left start} again => ?_) left
  rw [run_segments]
  cases front : start.tokens with
  | nil => exact .ended known rfl
  | cons lexeme rest =>
    dsimp only
    split
    · rename_i dots
      have names := steady_expect known "path segment" fun _ _ => Token.isPlain_of_means segmentName rfl rfl rfl
      refine .plain front (by rw [dots]; rfl) ((names _).follow fun step next reads _ => ?_)
      exact again (Nat.lt_of_le_of_lt (size_le_of_run reads) (Pending.behind_size front))
    · exact .pure known rfl

/-- An operand, where the expression in its parentheses stands one parenthesis deeper. -/
theorem atom_steady (known : (Depth.within conditionals parens).levels < limit)
    (steady : Steady limit (.within conditionals (parens + 1)) p q) :
    Steady limit (.within conditionals parens) (atom p) (atom q) := by
  intro start
  cases front : start.tokens with
  | nil =>
    rw [atom, atom, run_bind, run_bind, run_take_nil front]
    exact .failed
  | cons lexeme rest =>
    rw [run_atom_cons front, run_atom_cons front]
    cases stands : literal? lexeme.token with
    | some value => exact .plain front (Token.isPlain_of_means literal? rfl rfl rfl stands) (segments_steady known _)
    | none =>
      cases token : lexeme.token with
      | word name => exact .plain front (by rw [token]; rfl) (segments_steady known _)
      | parenOpen =>
        have opens : (Depth.within conditionals parens).behind lexeme.token = .within conditionals (parens + 1) := by
          rw [token]
          rfl
        refine .cons front (by rw [opens]; exact Nat.le_add_right _ 2) ?_
        rw [opens]
        refine (steady _).follow fun expr next _ deeper => ?_
        refine (closes_guards deeper _ next).follow fun _ next _ known => ?_
        exact segments_steady known next
      | _ => exact .failed

theorem filtered_steady (steady : Steady limit (.within conditionals parens) p q) :
    Steady limit (.within conditionals parens) (filtered p) (filtered q) := by
  intro start
  rw [filtered, filtered, run_bind, run_bind]
  have operands : Steady limit (.within conditionals parens) (p >>= filters start.span) (q >>= filters start.span) :=
    steady.follow fun left known => filters_steady known
  exact operands start

theorem disjunction_steady (steady : Steady limit (.within conditionals parens) p q) :
    Steady limit (.within conditionals parens) (disjunction p) (disjunction q) := by
  have comparisons := operation_steady .comparison (filtered_steady steady)
  have conjunctions := operation_steady .and (negation_steady comparisons)
  exact operation_steady .or conjunctions

/-- Whether the levels that are left are what a limit leaves in some conditionals and parentheses. An expression in
the parentheses of a path has one more level than others, since there is none around the path itself. -/
def Leaves (limit conditionals parens levels : Nat) : Prop :=
  limit ≤ conditionals + 2 * parens + levels ∧ conditionals + 2 * parens + levels ≤ limit + 1

/-- A limit of levels for expressions, and one for operands, is met where so many levels are taken. -/
theorem levels_steady (levels : Nat) {higher : Nat} (more : levels ≤ higher) :
    (∀ {conditionals parens}, Leaves limit conditionals parens levels →
      Steady limit (.within conditionals parens) (parse levels) (parse higher)) ∧
    ∀ {conditionals parens}, Leaves limit conditionals parens (levels + 1) →
      Steady limit (.within conditionals parens) (operand levels) (operand higher) := by
  induction levels generalizing higher with
  | zero =>
    constructor
    · intro conditionals parens left
      exact guards_tooNested (Nat.le_succ_of_le left.1)
    · intro conditionals parens left
      exact guards_tooNested left.1
  | succ levels ih =>
    obtain ⟨higher, rfl⟩ : ∃ inner, higher = inner + 1 := ⟨higher - 1, by omega⟩
    obtain ⟨expressions, operands⟩ := ih (Nat.le_of_succ_le_succ more)
    constructor
    · intro conditionals parens left
      exact disjunction_steady (operands left)
    · rintro conditionals parens ⟨low, high⟩
      have known : (Depth.within conditionals parens).levels < limit := by
        show conditionals + 2 * parens < limit
        omega
      refine atom_steady known (expressions ⟨?_, ?_⟩) <;> omega

theorem path_steady {levels higher : Nat} (more : levels ≤ higher)
    (left : Leaves limit conditionals parens (levels + 1)) :
    Steady limit (.within conditionals parens) (path levels) (path higher) := by
  refine ((levels_steady levels more).2 left).follow fun expr known => ?_
  split
  · exact steady_pure known _
  · exact guards_fail _

end Expr

end TextTemplate
