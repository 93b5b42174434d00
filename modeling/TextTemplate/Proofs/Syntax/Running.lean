import TextTemplate.Proofs.Results
import TextTemplate.Syntax.Statement

/-!
Readers as functions from pending tokens to a value and what is pending behind it. A reader that is
put together from others runs them one after the other; a loop runs its body while its tokens go on.
-/
namespace TextTemplate

namespace Parse

variable {α β : Type} {start next : Pending} {a : α} {b : β}

/-- What a reader reads, and what is pending behind it. -/
def run (p : Parse α) (start : Pending) : Except Misread (α × Pending) :=
  (p start).map fun r => (r.value, r.next)

theorem run_eq_ok {p : Parse α} :
    p.run start = .ok (a, next) ↔ ∃ r, p start = .ok r ∧ r.value = a ∧ r.next = next := by
  unfold run
  cases p start <;> simp [Except.map]

@[simp]
theorem run_pure (a : α) : (pure a : Parse α).run start = .ok (a, start) := rfl

@[simp]
theorem run_bind (p : Parse α) (f : α → Parse β) :
    (p >>= f).run start = p.run start >>= fun (a, next) => (f a).run next := by
  simp only [run, bind, Parse.bind, Except.bind]
  cases p start with
  | error e => rfl
  | ok r =>
    simp only [Except.map]
    cases f r.value r.next <;> rfl

theorem run_pure_eq_ok {value : α} :
    (pure value : Parse α).run start = .ok (a, next) ↔ value = a ∧ start = next := by
  rw [run_pure, Except.ok.injEq, Prod.mk.injEq]

theorem run_bind_eq_ok {p : Parse α} {f : α → Parse β} :
    (p >>= f).run start = .ok (b, next) ↔
      ∃ a middle, p.run start = .ok (a, middle) ∧ (f a).run middle = .ok (b, next) := by
  rw [run_bind, bind_eq_ok]
  constructor
  · rintro ⟨⟨a, middle⟩, first, second⟩
    exact ⟨a, middle, first, second⟩
  · rintro ⟨a, middle, first, second⟩
    exact ⟨(a, middle), first, second⟩

@[simp]
theorem run_map (p : Parse α) (f : α → β) :
    (f <$> p).run start = (p.run start).map fun (a, next) => (f a, next) := by
  have same : f <$> p = p >>= fun a => pure (f a) := rfl
  rw [same, run_bind]
  cases p.run start <;> rfl

@[simp]
theorem run_pending : pending.run start = .ok (start, start) := rfl

@[simp]
theorem run_nextSpan : nextSpan.run start = .ok (start.span, start) := rfl

@[simp]
theorem run_noteLayout : noteLayout.run start = .ok ((), { start with hasLayout := true }) := rfl

@[simp]
theorem run_noteSection (name : String) :
    (noteSection name).run start = .ok ((), { start with sections := name :: start.sections }) := rfl

/-- The next token, if there is one; at the end of the tokens the source may have ended or not. -/
def ahead (start : Pending) : Except Misread (Option Token) :=
  match start.tokens with
  | first :: _ => .ok (some first.token)
  | [] =>
    match start.problem with
    | some problem => .error (start.misread problem)
    | none => .ok none

theorem run_peek : peek.run start = (ahead start).map fun token => (token, start) := by
  obtain ⟨tokens, problem, last, sections, hasLayout⟩ := start
  cases tokens with
  | cons first rest => rfl
  | nil => cases problem <;> rfl

theorem run_peek_eq_ok {token : Option Token} (peeks : peek.run start = .ok (token, next)) :
    next = start ∧ token = start.tokens.head?.map (·.token) := by
  rw [run_peek, ahead] at peeks
  split at peeks
  · rename_i front
    obtain ⟨rfl, rfl⟩ := Prod.mk.inj (Except.ok.inj peeks)
    simp [front]
  · rename_i front
    split at peeks
    · cases peeks
    · obtain ⟨rfl, rfl⟩ := Prod.mk.inj (Except.ok.inj peeks)
      simp [front]

theorem run_take_cons {expected : String} {first : Lexeme} {rest : List Lexeme} (front : start.tokens = first :: rest) :
    (take expected).run start = .ok (first, start.behind first rest) := by
  unfold run take takeFirst
  split
  · rename_i found
    rw [front] at found
    cases found
    rfl
  · simp_all

theorem run_take_nil {expected : String} (front : start.tokens = []) :
    (take expected).run start = .error (start.misread (start.problem.getD (.unexpected "end of input" expected))) := by
  unfold run take takeFirst
  split
  · simp_all
  · rfl

theorem run_expect (expected : String) (meaning : Token → Option α) :
    (expect expected meaning).run start = (take expected).run start >>= fun (lexeme, next) =>
      match meaning lexeme.token with
      | some a => .ok ((a, lexeme.span), next)
      | none => .error (next.misread (.unexpected lexeme.token.description expected)) := by
  unfold run expect expectFirst take
  cases takeFirst expected start with
  | error e => rfl
  | ok r =>
    obtain ⟨r, shorter⟩ := r
    simp only [Except.map, bind, Except.bind]
    cases meaning r.value.token <;> rfl

theorem run_take_eq_ok {expected : String} {first : Lexeme} :
    (take expected).run start = .ok (first, next) ↔
      ∃ rest, start.tokens = first :: rest ∧ next = start.behind first rest := by
  cases front : start.tokens with
  | nil => simp [run_take_nil front]
  | cons lexeme rest =>
    rw [run_take_cons front]
    constructor
    · intro taken
      obtain ⟨rfl, rfl⟩ := Prod.mk.inj (Except.ok.inj taken)
      exact ⟨rest, rfl, rfl⟩
    · rintro ⟨_, same, rfl⟩
      obtain ⟨rfl, rfl⟩ := List.cons.inj same
      rfl

theorem run_expect_eq_ok {expected : String} {meaning : Token → Option α} {span : Span} :
    (expect expected meaning).run start = .ok ((a, span), next) ↔
      ∃ first rest, start.tokens = first :: rest ∧ meaning first.token = some a ∧ span = first.span ∧
        next = start.behind first rest := by
  rw [run_expect, bind_eq_ok]
  constructor
  · rintro ⟨⟨first, behind⟩, taken, means⟩
    obtain ⟨rest, front, rfl⟩ := run_take_eq_ok.mp taken
    dsimp only at means
    split at means
    · rename_i found
      obtain ⟨same, rfl⟩ := Prod.mk.inj (Except.ok.inj means)
      obtain ⟨rfl, rfl⟩ := Prod.mk.inj same
      exact ⟨first, rest, front, found, rfl, rfl⟩
    · cases means
  · rintro ⟨first, rest, front, means, rfl, rfl⟩
    refine ⟨_, run_take_cons front, ?_⟩
    dsimp only
    rw [means]

theorem run_expectToken_eq_ok {expected : String} {token : Token} {span : Span} :
    (expectToken expected token).run start = .ok (span, next) ↔
      ∃ rest, start.tokens = ⟨token, span⟩ :: rest ∧ next = start.behind ⟨token, span⟩ rest := by
  constructor
  · intro expected
    rw [expectToken, run_map] at expected
    cases reads : (expect _ (isToken token)).run start with
    | error e =>
      rw [reads] at expected
      cases expected
    | ok found =>
      rw [reads] at expected
      obtain ⟨⟨⟨⟩, place⟩, behind⟩ := found
      obtain ⟨rfl, rfl⟩ := Prod.mk.inj (Except.ok.inj expected)
      obtain ⟨⟨other, span⟩, rest, front, means, rfl, rfl⟩ := run_expect_eq_ok.mp reads
      unfold isToken at means
      split at means
      · rename_i same
        subst same
        exact ⟨rest, front, rfl⟩
      · cases means
  · rintro ⟨rest, front, rfl⟩
    have means : isToken token token = some () := if_pos rfl
    have reads : (expect expected (isToken token)).run start = .ok (((), span), start.behind ⟨token, span⟩ rest) :=
      run_expect_eq_ok.mpr ⟨_, rest, front, means, rfl, rfl⟩
    rw [expectToken, run_map, reads]
    rfl

theorem run_skip_cons {token : Token} {first : Lexeme} {rest : List Lexeme} (front : start.tokens = first :: rest) :
    (skip token).run start =
      .ok (if first.token = token then (true, start.behind first rest) else (false, start)) := by
  have peeks : (peek).run start = .ok (some first.token, start) := by
    rw [run_peek, ahead, front]
    rfl
  rw [skip, run_bind, peeks]
  show (if some first.token = some token then _ else _ : Parse Bool).run start = _
  by_cases same : first.token = token
  · rw [if_pos (congrArg some same), if_pos same, run_bind, run_take_cons front]
    rfl
  · rw [if_neg (fun found => same (Option.some.inj found)), if_neg same]
    rfl

theorem run_skip_eq_ok {token : Token} {skipped : Bool} (skips : (skip token).run start = .ok (skipped, next)) :
    (skipped = true ∧
      ∃ span rest, start.tokens = ⟨token, span⟩ :: rest ∧ next = start.behind ⟨token, span⟩ rest) ∨
      skipped = false ∧ next = start ∧ ∀ first ∈ start.tokens.head?, first.token ≠ token := by
  cases front : start.tokens with
  | nil =>
    refine .inr ?_
    rw [skip, run_bind, run_peek, ahead, front] at skips
    cases problem : start.problem with
    | some problem =>
      rw [problem] at skips
      cases skips
    | none =>
      rw [problem] at skips
      obtain ⟨rfl, rfl⟩ := Prod.mk.inj (Except.ok.inj skips)
      exact ⟨rfl, rfl, by simp⟩
  | cons first rest =>
    rw [run_skip_cons front] at skips
    split at skips
    · rename_i same
      subst same
      obtain ⟨rfl, rfl⟩ := Prod.mk.inj (Except.ok.inj skips)
      exact .inl ⟨rfl, first.span, rest, rfl, rfl⟩
    · rename_i other
      obtain ⟨rfl, rfl⟩ := Prod.mk.inj (Except.ok.inj skips)
      refine .inr ⟨rfl, rfl, ?_⟩
      intro _ found
      obtain rfl := Option.some.inj found
      exact other

end Parse

namespace Expr

open Parse

variable {start next : Pending}

theorem run_chain (operator : Operator) (operand : Parse Expr) (first : Span) (left : Expr) :
    (chain operator operand first left).run start =
      match start.tokens with
      | [] =>
        match start.problem with
        | some problem => .error (start.misread problem)
        | none => .ok (left, start)
      | lexeme :: rest =>
        match operator lexeme.token with
        | none => .ok (left, start)
        | some op =>
          operand.run (start.behind lexeme rest) >>= fun (right, next) =>
            (chain operator operand first (.binary op left right (first.upTo next.last))).run next := by
  obtain ⟨tokens, problem, last, sections, hasLayout⟩ := start
  rw [run, chain]
  cases tokens with
  | nil => cases problem <;> rfl
  | cons lexeme rest =>
    dsimp only
    cases operator lexeme.token with
    | none => rfl
    | some op =>
      simp only [run]
      cases operand _ with
      | error e => rfl
      | ok right =>
        simp only [Except.map, bind, Except.bind]
        cases chain operator operand first _ right.next <;> rfl

theorem run_negation (operand : Parse Expr) :
    (negation operand).run start =
      match start.tokens with
      | [] =>
        match start.problem with
        | some problem => .error (start.misread problem)
        | none => operand.run start
      | lexeme :: rest =>
        if isNot lexeme.token then
          (negation operand).run (start.behind lexeme rest) >>= fun (inner, next) =>
            .ok (.not inner (lexeme.span.upTo next.last), next)
        else operand.run start := by
  obtain ⟨tokens, problem, last, sections, hasLayout⟩ := start
  rw [run, negation]
  cases tokens with
  | nil => cases problem <;> rfl
  | cons lexeme rest =>
    dsimp only
    by_cases negates : isNot lexeme.token
    · simp only [if_pos negates, run]
      cases negation operand _ <;> rfl
    · simp only [if_neg negates, run]

theorem run_filters (first : Span) (operand : Expr) :
    (filters first operand).run start =
      match start.tokens with
      | [] =>
        match start.problem with
        | some problem => .error (start.misread problem)
        | none => .ok (operand, start)
      | lexeme :: rest =>
        if lexeme.token = .pipe then
          filterStep.run (start.behind lexeme rest) >>= fun (step, next) =>
            (filters first (.filter step.1 operand step.2 (first.upTo next.last))).run next
        else .ok (operand, start) := by
  obtain ⟨tokens, problem, last, sections, hasLayout⟩ := start
  rw [run, filters]
  cases tokens with
  | nil => cases problem <;> rfl
  | cons lexeme rest =>
    dsimp only
    by_cases piped : lexeme.token = .pipe
    · simp only [if_pos piped, run]
      cases filterStep _ with
      | error e => rfl
      | ok step =>
        simp only [Except.map, bind, Except.bind]
        cases filters first _ step.next <;> rfl
    · simp only [if_neg piped]
      rfl

theorem run_segments (first : Span) (operand : Expr) :
    (segments first operand).run start =
      match start.tokens with
      | [] =>
        match start.problem with
        | some problem => .error (start.misread problem)
        | none => .ok (operand, start)
      | lexeme :: rest =>
        if lexeme.token = .dot then
          (expect "path segment" segmentName).run (start.behind lexeme rest) >>= fun (step, next) =>
            (segments first (.member operand step.1 (first.upTo next.last))).run next
        else .ok (operand, start) := by
  obtain ⟨tokens, problem, last, sections, hasLayout⟩ := start
  rw [run, segments]
  cases tokens with
  | nil => cases problem <;> rfl
  | cons lexeme rest =>
    dsimp only
    by_cases dotted : lexeme.token = .dot
    · simp only [if_pos dotted, run]
      cases expect "path segment" segmentName _ with
      | error e => rfl
      | ok step =>
        simp only [Except.map, bind, Except.bind]
        cases segments first _ step.next <;> rfl
    · simp only [if_neg dotted]
      rfl

theorem run_filterStep :
    filterStep.run start = (expect "filter name" wordName).run start >>= fun ((name, _), next) =>
      (skip .colon).run next >>= fun (colon, next) =>
        if colon then
          (expect "filter argument" argumentText).run next >>= fun ((argument, _), next) =>
            .ok ((name, some argument), next)
        else .ok ((name, none), next) := by
  rw [filterStep, run_bind]
  congr 1
  funext ((name, _), next)
  dsimp only
  rw [run_bind]
  congr 1
  funext (colon, next)
  cases colon with
  | false => rfl
  | true =>
    dsimp only
    rw [if_pos rfl, if_pos rfl, run_bind]
    rfl

theorem wordName_eq_some {token : Token} {name : String} (means : wordName token = some name) : token = .word name := by
  unfold wordName at means
  split at means
  · cases means
    rfl
  · cases means

/-- A filter is its name in front of no colon, or its name, a colon and an argument. -/
theorem run_filterStep_eq_ok {step : String × Option String} (reads : filterStep.run start = .ok (step, next)) :
    ∃ word rest name, start.tokens = word :: rest ∧ word.token = .word name ∧
      (step = (name, none) ∧ next = start.behind word rest ∧ (∀ ahead ∈ rest.head?, ahead.token ≠ .colon) ∨
        ∃ colon given behind argument, rest = colon :: given :: behind ∧ colon.token = .colon ∧
          argumentText given.token = some argument ∧ step = (name, some argument) ∧
          next = start.behind given behind) := by
  rw [run_filterStep] at reads
  obtain ⟨⟨⟨name, _⟩, _⟩, named, reads⟩ := bind_eq_ok.mp reads
  obtain ⟨word, rest, front, names, -, rfl⟩ := run_expect_eq_ok.mp named
  refine ⟨word, rest, name, front, wordName_eq_some names, ?_⟩
  obtain ⟨⟨colon, _⟩, skips, reads⟩ := bind_eq_ok.mp reads
  rcases run_skip_eq_ok skips with ⟨rfl, span, behind, colons, rfl⟩ | ⟨rfl, rfl, other⟩
  · obtain ⟨⟨⟨argument, _⟩, _⟩, gives, reads⟩ := bind_eq_ok.mp reads
    obtain ⟨given, later, found, means, -, rfl⟩ := run_expect_eq_ok.mp gives
    obtain ⟨rfl, rfl⟩ := Prod.mk.inj (Except.ok.inj reads)
    have colons : rest = ⟨.colon, span⟩ :: behind := colons
    have found : behind = given :: later := found
    exact .inr ⟨_, given, later, argument, by rw [colons, found], rfl, means, rfl, rfl⟩
  · obtain ⟨rfl, rfl⟩ := Prod.mk.inj (Except.ok.inj reads)
    exact .inl ⟨rfl, rfl, other⟩

theorem run_atom_cons {inner : Parse Expr} {first : Lexeme} {rest : List Lexeme}
    (front : start.tokens = first :: rest) :
    (atom inner).run start =
      match literal? first.token with
      | some value => (segments first.span (.const value first.span)).run (start.behind first rest)
      | none =>
        match first.token with
        | .word name => (segments first.span (.var name first.span)).run (start.behind first rest)
        | .parenOpen =>
          inner.run (start.behind first rest) >>= fun (expr, next) =>
            (expectToken "`)`" .parenClose).run next >>= fun (_, next) => (segments first.span expr).run next
        | token => .error ((start.behind first rest).misread (.unexpected token.description "expression")) := by
  obtain ⟨token, span⟩ := first
  rw [atom, run_bind, run_take_cons front]
  show (match literal? token with | some _ => _ | none => _ : Parse Expr).run _ = _
  dsimp only
  cases literal? token with
  | some value => rfl
  | none =>
    cases token with
    | parenOpen =>
      refine (run_bind ..).trans ?_
      congr 1
      funext (expr, next)
      exact run_bind ..
    | _ => rfl

end Expr

namespace Stmt

open Parse

variable {start : Pending}

theorem run_sectionEnd :
    sectionEnd.run start =
      match start.tokens with
      | [] => .error (start.misread (start.problem.getD (.unexpected "end of input" "endsection")))
      | lexeme :: rest =>
        if lexeme.token = .tagStart then
          peek.run (start.behind lexeme rest) >>= fun (token, _) =>
            if token = some (.word "endsection") then
              (take "").run (start.behind lexeme rest) >>= fun (_, next) =>
                endOfTag.run next >>= fun (_, next) => .ok (lexeme.span, next)
            else if token = some (.word "section") then .error ((start.behind lexeme rest).misread .nestedSection)
            else sectionEnd.run (start.behind lexeme rest)
        else sectionEnd.run (start.behind lexeme rest) := by
  obtain ⟨tokens, problem, last, sections, hasLayout⟩ := start
  rw [run, sectionEnd]
  cases tokens with
  | nil => rfl
  | cons lexeme rest =>
    dsimp only
    by_cases opens : lexeme.token = .tagStart
    · rw [if_pos opens, if_pos opens, run]
      cases peek _ with
      | error e => rfl
      | ok ahead =>
        simp only [Except.map, bind, Except.bind]
        by_cases closes : ahead.value = some (.word "endsection")
        · rw [if_pos closes, if_pos closes]
          simp only [run, Parse.bind, Except.map]
          cases take "" _ with
          | error e => rfl
          | ok r =>
            dsimp only
            cases endOfTag r.next <;> rfl
        rw [if_neg closes, if_neg closes]
        by_cases nested : ahead.value = some (.word "section")
        · rw [if_pos nested, if_pos nested]
        · rw [if_neg nested, if_neg nested, run]
          cases sectionEnd _ <;> rfl
    · rw [if_neg opens, if_neg opens, run]
      cases sectionEnd _ <;> rfl

theorem run_moreBindings (levels : Nat) :
    (moreBindings levels).run start =
      (skip .bracketClose).run start >>= fun (closed, next) =>
        if closed then .ok ([], next)
        else (expect "`,`" (isToken .comma)).run next >>= fun (_, next) =>
          (skip .bracketClose).run next >>= fun (closed, next) =>
            if closed then .ok ([], next)
            else (binding levels).run next >>= fun (bound, next) =>
              (moreBindings levels).run next >>= fun (rest, next) => .ok (bound :: rest, next) := by
  rw [run, moreBindings, run]
  cases skip .bracketClose start with
  | error e => rfl
  | ok closed =>
    simp only [Except.map, bind, Except.bind]
    by_cases ends : closed.value
    · rw [if_pos ends, if_pos ends]
    rw [if_neg ends, if_neg ends, run, expect]
    cases expectFirst "`,`" (isToken .comma) closed.next with
    | error e => rfl
    | ok comma =>
      obtain ⟨comma, shorter⟩ := comma
      simp only [Except.map, run, Parse.bind]
      cases skip .bracketClose comma.next with
      | error e => rfl
      | ok again =>
        dsimp only
        by_cases ends : again.value
        · rw [if_pos ends, if_pos ends]
          rfl
        · rw [if_neg ends, if_neg ends]
          simp only [Parse.bind]
          cases binding levels again.next with
          | error e => rfl
          | ok bound =>
            simp only [pure, Parse.pure]
            cases moreBindings levels bound.next <;> rfl

theorem run_block (tag : Span → Parse Stmt) (stops : Token → Bool) :
    (block tag stops).run start =
      match start.tokens with
      | [] =>
        match start.problem with
        | some problem => .error (start.misread problem)
        | none => .ok ([], start)
      | lexeme :: rest =>
        match lexeme.token with
        | .text raw =>
          (block tag stops).run (start.behind lexeme rest) >>= fun (all, next) =>
            .ok (.text raw lexeme.span :: all, next)
        | .tagStart =>
          peek.run (start.behind lexeme rest) >>= fun (token, _) =>
            if (token.map stops).getD false then .ok ([], start.behind lexeme rest)
            else (tag lexeme.span).run (start.behind lexeme rest) >>= fun (first, next) =>
              (block tag stops).run next >>= fun (all, next) => .ok (first :: all, next)
        | token =>
          .error ((start.behind lexeme rest).misread (.unexpected token.description "template data or tag")) := by
  obtain ⟨tokens, problem, last, sections, hasLayout⟩ := start
  rw [run, block]
  cases tokens with
  | nil => cases problem <;> rfl
  | cons lexeme rest =>
    obtain ⟨token, span⟩ := lexeme
    cases token with
    | text raw =>
      simp only [run]
      cases block tag stops _ <;> rfl
    | tagStart =>
      simp only [run]
      cases peek _ with
      | error e => rfl
      | ok ahead =>
        simp only [Except.map, bind, Except.bind]
        by_cases ends : (ahead.value.map stops).getD false
        · rw [if_pos ends, if_pos ends]
        · rw [if_neg ends, if_neg ends]
          cases tag span _ with
          | error e => rfl
          | ok first =>
            dsimp only
            cases block tag stops first.next <;> rfl
    | _ => rfl

theorem run_branches (condition : Parse Expr) (body : (Token → Bool) → Parse (List Stmt)) (first : Expr) :
    (branches condition body first).run start =
      (expect "end of tag" (isToken .tagEnd)).run start >>= fun (_, next) =>
        (body endsBranch).run next >>= fun (inner, next) =>
          (afterBranch condition body).run next >>= fun (after, next) =>
            match after with
            | .done otherwise => .ok (([(first, inner)], otherwise), next)
            | .branch second =>
              (branches condition body second).run next >>= fun (rest, next) =>
                .ok (((first, inner) :: rest.1, rest.2), next) := by
  rw [run, branches, run, expect]
  cases expectFirst "end of tag" (isToken .tagEnd) start with
  | error e => rfl
  | ok tagEnd =>
    obtain ⟨tagEnd, shorter⟩ := tagEnd
    simp only [Except.map, bind, Except.bind, run]
    cases body endsBranch tagEnd.next with
    | error e => rfl
    | ok inner =>
      dsimp only
      cases afterBranch condition body inner.next with
      | error e => rfl
      | ok after =>
        dsimp only
        cases after.value with
        | done otherwise => rfl
        | branch second =>
          dsimp only
          cases branches condition body second after.next <;> rfl

end Stmt

end TextTemplate
