import TextTemplate.Proofs.Bare
import TextTemplate.Proofs.Syntax.Joining
import TextTemplate.Proofs.Syntax.Sections
import TextTemplate.Proofs.Syntax.Spans

/-!
Reading tokens in another place. The places of tokens go into the spans of a tree and nowhere else, so
that the same tokens in other places are read as the same tree with its spans in these places.
-/
namespace TextTemplate

open Parse

section Trees
variable (place : Position → Position)

/-- An expression whose spans are in other places. -/
def Expr.map : Expr → Expr
  | .var name span => .var name (span.map place)
  | .const value span => .const value (span.map place)
  | .member of name span => .member (of.map) name (span.map place)
  | .not operand span => .not operand.map (span.map place)
  | .binary op left right span => .binary op left.map right.map (span.map place)
  | .filter name operand argument span => .filter name operand.map argument (span.map place)

theorem Expr.bare_map (e : Expr) : (e.map place).bare = e.bare := by
  induction e with
  | var | const => rfl
  | member of name span ih => rw [map, bare, bare, ih]
  | not operand span ih => rw [map, bare, bare, ih]
  | binary op left right span ihl ihr => rw [map, bare, bare, ihl, ihr]
  | filter name operand argument span ih => rw [map, bare, bare, ih]

theorem Expr.isPath_map (e : Expr) : (e.map place).isPath = e.isPath := by
  induction e with
  | member of name span ih => exact ih
  | _ => rfl

/-- Bindings whose paths have their spans in other places. -/
def Expr.mapBindings (bindings : List (String × Expr)) : List (String × Expr) :=
  bindings.map fun (key, path) => (key, path.map place)

@[simp]
theorem Expr.mapBindings_cons (key : String) (path : Expr) (rest : List (String × Expr)) :
    mapBindings place ((key, path) :: rest) = (key, path.map place) :: mapBindings place rest := rfl

theorem Expr.bareBindings_map (bindings : List (String × Expr)) :
    bareBindings (mapBindings place bindings) = bareBindings bindings := by
  simp [bareBindings, mapBindings, bare_map]

namespace Stmt

mutual

/-- A statement whose spans are in other places. The text of a section knows its place itself. -/
def map : Stmt → Stmt
  | .text raw span => .text raw (span.map place)
  | .output value span => .output (value.map place) (span.map place)
  | .conditional branches otherwise span =>
    .conditional (mapBranches branches) (mapOtherwise otherwise) (span.map place)
  | .each item collection part span => .each item (collection.map place) part (span.map place)
  | .inclusion name span => .inclusion name (span.map place)
  | .embedding name bindings span => .embedding name (Expr.mapBindings place bindings) (span.map place)
  | .fill name span => .fill name (span.map place)
  | .layout name span => .layout name (span.map place)
  | .capture name body span => .capture name body (span.map place)

def mapAll : List Stmt → List Stmt
  | [] => []
  | stmt :: stmts => map stmt :: mapAll stmts

def mapBranches : List (Expr × List Stmt) → List (Expr × List Stmt)
  | [] => []
  | (condition, body) :: branches => (condition.map place, mapAll body) :: mapBranches branches

def mapOtherwise : Option (List Stmt) → Option (List Stmt)
  | none => none
  | some body => some (mapAll body)

end

mutual

theorem bare_map : (stmt : Stmt) → (stmt.map place).bare = stmt.bare
  | .output value span => by rw [map, bare, bare, Expr.bare_map]
  | .conditional branches otherwise span => by
    rw [map, bare, bare, bareBranches_map branches, bareOtherwise_map otherwise]
  | .each item collection part span => by rw [map, bare, bare, Expr.bare_map]
  | .embedding name bindings span => by rw [map, bare, bare, Expr.bareBindings_map]
  | .text .. | .inclusion .. | .fill .. | .layout .. | .capture .. => rfl

theorem bareAll_map : (stmts : List Stmt) → bareAll (mapAll place stmts) = bareAll stmts
  | [] => rfl
  | stmt :: stmts => by rw [mapAll, bareAll, bareAll, bare_map stmt, bareAll_map stmts]

theorem bareBranches_map : (branches : List (Expr × List Stmt)) →
    bareBranches (mapBranches place branches) = bareBranches branches
  | [] => rfl
  | (condition, body) :: branches => by
    rw [mapBranches, bareBranches, bareBranches, Expr.bare_map, bareAll_map body, bareBranches_map branches]

theorem bareOtherwise_map : (otherwise : Option (List Stmt)) →
    bareOtherwise (mapOtherwise place otherwise) = bareOtherwise otherwise
  | none => rfl
  | some body => by rw [mapOtherwise, bareOtherwise, bareOtherwise, bareAll_map body]

end

end Stmt

end Trees

namespace Pending

variable {place : Position → Position} {start : Pending}

/-- The same tokens in other places. -/
def map (place : Position → Position) (pending : Pending) : Pending :=
  { pending with tokens := pending.tokens.map (Lexeme.map place), last := pending.last.map place }

theorem span_map (start : Pending) : (start.map place).span = start.span.map place := by
  obtain ⟨tokens, problem, last, sections, hasLayout⟩ := start
  cases tokens <;> rfl

theorem map_nil (ended : start.tokens = []) : (start.map place).tokens = [] := by
  rw [map, ended]
  rfl

theorem map_cons {first : Lexeme} {rest : List Lexeme} (front : start.tokens = first :: rest) :
    (start.map place).tokens = first.map place :: rest.map (Lexeme.map place) := by
  rw [map, front]
  rfl

end Pending

namespace Parse

variable {α β : Type} {place : Position → Position} {start next : Pending}

/-- What one reader reads from some tokens, another one reads from these tokens in other places, up to the places. -/
def Relocates (place : Position → Position) (carry : α → α) (p q : Parse α) : Prop :=
  ∀ ⦃start next a⦄, p.run start = .ok (a, next) → q.run (start.map place) = .ok (carry a, next.map place)

theorem relocates_expect (place : Position → Position) (expected : String) (meaning : Token → Option α) :
    Relocates place (fun (a, span) => (a, span.map place)) (expect expected meaning) (expect expected meaning) := by
  rintro start next ⟨a, span⟩ reads
  obtain ⟨first, rest, front, means, rfl, rfl⟩ := run_expect_eq_ok.mp reads
  exact run_expect_eq_ok.mpr ⟨first.map place, _, Pending.map_cons front, means, rfl, rfl⟩

theorem relocates_skip (place : Position → Position) (token : Token) :
    Relocates place id (skip token) (skip token) := by
  intro start next skipped skips
  obtain ⟨tokens, problem, last, sections, hasLayout⟩ := start
  cases tokens with
  | nil =>
    cases problem with
    | some problem => cases skips
    | none =>
      obtain ⟨rfl, rfl⟩ := Prod.mk.inj (Except.ok.inj skips)
      rfl
  | cons first rest =>
    rw [run_skip_cons rfl] at skips
    rw [run_skip_cons (Pending.map_cons rfl), Lexeme.token_map]
    split at skips
    · rename_i same
      obtain ⟨rfl, rfl⟩ := Prod.mk.inj (Except.ok.inj skips)
      rw [if_pos same]
      rfl
    · rename_i other
      obtain ⟨rfl, rfl⟩ := Prod.mk.inj (Except.ok.inj skips)
      rw [if_neg other]
      rfl

end Parse

namespace Expr

open Parse

variable {place : Position → Position} {start next : Pending}

theorem relocates_filterStep (place : Position → Position) : Relocates place id filterStep filterStep := by
  intro start next step reads
  rw [run_filterStep] at reads ⊢
  obtain ⟨⟨⟨name, span⟩, middle⟩, named, reads⟩ := bind_eq_ok.mp reads
  obtain ⟨⟨colon, behind⟩, skips, reads⟩ := bind_eq_ok.mp reads
  refine bind_eq_ok.mpr ⟨_, relocates_expect place _ _ named, bind_eq_ok.mpr ⟨_, relocates_skip place _ skips, ?_⟩⟩
  cases colon with
  | false =>
    obtain ⟨rfl, rfl⟩ := Prod.mk.inj (Except.ok.inj reads)
    rfl
  | true =>
    obtain ⟨⟨⟨argument, span'⟩, last⟩, gives, reads⟩ := bind_eq_ok.mp reads
    obtain ⟨rfl, rfl⟩ := Prod.mk.inj (Except.ok.inj reads)
    exact bind_eq_ok.mpr ⟨_, relocates_expect place _ _ gives, rfl⟩

/-- A loop behind an operand that goes on alike in another place. -/
def RelocatesLoop (place : Position → Position) (loop : Span → Expr → Parse Expr) : Prop :=
  ∀ first left, Relocates place (Expr.map place) (loop first left) (loop (first.map place) (left.map place))

/-- A loop that joins what it has with one more reading for each token of a kind reads alike in another place if
these readings do. -/
theorem RelocatesLoop.of_rounds {β : Type} {loop : Span → Expr → Parse Expr} {p : Parse β} {carry : β → β}
    (joins : Token → Option (Expr → β → Span → Expr))
    (run_loop : ∀ (first : Span) (left : Expr) (start : Pending), (loop first left).run start =
      match start.tokens with
      | [] =>
        match start.problem with
        | some problem => .error (start.misread problem)
        | none => .ok (left, start)
      | lexeme :: rest =>
        match joins lexeme.token with
        | none => .ok (left, start)
        | some join =>
          p.run (start.behind lexeme rest) >>= fun (b, next) =>
            (loop first (join left b (first.upTo next.last))).run next)
    (relocates : Relocates place carry p p)
    (joined : ∀ {token join}, joins token = some join → ∀ left b span,
      (join left b span).map place = join (left.map place) (carry b) (span.map place)) : RelocatesLoop place loop := by
  intro first left start next e reads
  induction size : start.tokens.length using Nat.strongRecOn generalizing start left with
  | ind n ih =>
  rw [run_loop] at reads
  rw [run_loop]
  split at reads
  · rename_i front
    have same : (start.map place).problem = start.problem := rfl
    rw [Pending.map_nil front]
    dsimp only
    rw [same]
    split at reads
    · cases reads
    · obtain ⟨rfl, rfl⟩ := Prod.mk.inj (Except.ok.inj reads)
      rfl
  rename_i lexeme rest front
  rw [Pending.map_cons front]
  dsimp only at reads ⊢
  rw [Lexeme.token_map]
  split at reads
  · obtain ⟨rfl, rfl⟩ := Prod.mk.inj (Except.ok.inj reads)
    rfl
  · rename_i join found
    obtain ⟨⟨b, middle⟩, one, more⟩ := bind_eq_ok.mp reads
    have shorter : middle.size < start.size := Nat.lt_of_le_of_lt (size_le_of_run one) (Pending.behind_size front)
    have relocated : p.run ((start.map place).behind (lexeme.map place) (rest.map (Lexeme.map place))) =
        .ok (carry b, middle.map place) := relocates one
    have goesOn := ih _ (size ▸ shorter) _ more rfl
    rw [joined found] at goesOn
    rw [relocated]
    exact goesOn

theorem chain_relocates {operator : Operator} {operand : Parse Expr}
    (relocates : Relocates place (Expr.map place) operand operand) : RelocatesLoop place (chain operator operand) := by
  refine .of_rounds (fun token => (operator token).map Expr.binary) (fun first left start => ?_) relocates ?_
  · rw [run_chain]
    cases start.tokens with
    | nil => rfl
    | cons lexeme rest =>
      dsimp only
      cases operator lexeme.token <;> rfl
  · intro token join found left right span
    obtain ⟨op, -, rfl⟩ := Option.map_eq_some_iff.mp found
    rfl

theorem filters_relocates : RelocatesLoop place filters := by
  let joins (token : Token) : Option (Expr → String × Option String → Span → Expr) :=
    if token = .pipe then some fun left step span => .filter step.1 left step.2 span else none
  refine .of_rounds joins (fun first left start => ?_) (relocates_filterStep place) ?_
  · rw [run_filters]
    cases start.tokens with
    | nil => rfl
    | cons lexeme rest =>
      dsimp only [joins]
      split <;> rfl
  · intro token join found left step span
    obtain ⟨-, same⟩ := Option.ite_none_right_eq_some.mp found
    obtain rfl := Option.some.inj same
    rfl

theorem segments_relocates : RelocatesLoop place segments := by
  let joins (token : Token) : Option (Expr → String × Span → Span → Expr) :=
    if token = .dot then some fun left step span => .member left step.1 span else none
  have segment := relocates_expect place "path segment" segmentName
  refine .of_rounds joins (fun first left start => ?_) segment ?_
  · rw [run_segments]
    cases start.tokens with
    | nil => rfl
    | cons lexeme rest =>
      dsimp only [joins]
      split <;> rfl
  · intro token join found left step span
    obtain ⟨-, same⟩ := Option.ite_none_right_eq_some.mp found
    obtain rfl := Option.some.inj same
    rfl

theorem negation_relocates {operand : Parse Expr} (relocates : Relocates place (Expr.map place) operand operand) :
    Relocates place (Expr.map place) (negation operand) (negation operand) := by
  intro start next e reads
  induction size : start.tokens.length using Nat.strongRecOn generalizing start e with
  | ind n ih =>
  rw [run_negation] at reads
  rw [run_negation]
  split at reads
  · rename_i front
    have same : (start.map place).problem = start.problem := rfl
    rw [Pending.map_nil front]
    dsimp only
    rw [same]
    split at reads
    · cases reads
    · exact relocates reads
  rename_i lexeme rest front
  rw [Pending.map_cons front]
  dsimp only at reads ⊢
  rw [Lexeme.token_map]
  split at reads
  · rename_i negates
    obtain ⟨⟨inner, middle⟩, one, more⟩ := bind_eq_ok.mp reads
    obtain ⟨rfl, rfl⟩ := Prod.mk.inj (Except.ok.inj more)
    have relocated :
        (negation operand).run ((start.map place).behind (lexeme.map place) (rest.map (Lexeme.map place))) = _ :=
      ih _ (size ▸ Pending.behind_size front) one rfl
    rw [if_pos negates, relocated]
    rfl
  · rename_i plain
    rw [if_neg plain]
    exact relocates reads

theorem atom_relocates {inner : Parse Expr} (relocates : Relocates place (Expr.map place) inner inner) :
    Relocates place (Expr.map place) (atom inner) (atom inner) := by
  intro start next e reads
  cases front : start.tokens with
  | nil =>
    rw [atom, run_bind, run_take_nil front] at reads
    cases reads
  | cons first rest =>
    rw [run_atom_cons front] at reads
    rw [run_atom_cons (Pending.map_cons front), Lexeme.token_map]
    split at reads
    · exact segments_relocates _ _ reads
    split at reads
    · exact segments_relocates _ _ reads
    · obtain ⟨⟨inside, middle⟩, one, more⟩ := bind_eq_ok.mp reads
      obtain ⟨⟨span, behind⟩, closes, more⟩ := bind_eq_ok.mp more
      obtain ⟨later, closed, rfl⟩ := run_expectToken_eq_ok.mp closes
      have closed' : (middle.map place).tokens = ⟨.parenClose, span.map place⟩ :: later.map (Lexeme.map place) :=
        Pending.map_cons closed
      refine bind_eq_ok.mpr ⟨_, relocates one, ?_⟩
      refine bind_eq_ok.mpr ⟨_, run_expectToken_eq_ok.mpr ⟨_, closed', rfl⟩, ?_⟩
      exact segments_relocates _ _ more
    · cases reads

/-- A level is read alike in another place if its operands are and its loop is. -/
theorem reader_relocates {level : Level} {atom : Parse Expr} (inner : level ≠ .path) (plain : level ≠ .not)
    (operand : Relocates place (Expr.map place) (level.tighter.reader atom) (level.tighter.reader atom))
    (loop : RelocatesLoop place (level.loop atom)) :
    Relocates place (Expr.map place) (level.reader atom) (level.reader atom) := by
  intro start next e reads
  rw [Level.run_reader inner plain] at reads ⊢
  obtain ⟨⟨left, middle⟩, one, more⟩ := bind_eq_ok.mp reads
  refine bind_eq_ok.mpr ⟨_, operand one, ?_⟩
  rw [Pending.span_map]
  exact loop _ _ more

theorem disjunction_relocates {atom : Parse Expr} (relocates : Relocates place (Expr.map place) atom atom) :
    Relocates place (Expr.map place) (disjunction atom) (disjunction atom) := by
  have filter : Relocates place (Expr.map place) (Level.filter.reader atom) (Level.filter.reader atom) :=
    reader_relocates nofun nofun relocates filters_relocates
  have comparison : Relocates place (Expr.map place) (Level.comparison.reader atom) (Level.comparison.reader atom) :=
    reader_relocates nofun nofun filter (chain_relocates filter)
  have not : Relocates place (Expr.map place) (Level.not.reader atom) (Level.not.reader atom) :=
    negation_relocates comparison
  have and : Relocates place (Expr.map place) (Level.and.reader atom) (Level.and.reader atom) :=
    reader_relocates nofun nofun not (chain_relocates not)
  show Relocates place (Expr.map place) (Level.or.reader atom) (Level.or.reader atom)
  exact reader_relocates nofun nofun and (chain_relocates and)

theorem operand_relocates (place : Position → Position) (levels : Nat) :
    Relocates place (Expr.map place) (operand levels) (operand levels) := by
  induction levels using Nat.strongRecOn with
  | ind levels ih =>
  match levels with
  | 0 => exact fun _ _ _ reads => by cases reads
  | 1 => exact atom_relocates fun _ _ _ reads => by cases reads
  | levels + 2 => exact atom_relocates (disjunction_relocates (ih levels (by omega)))

theorem parse_relocates (place : Position → Position) (levels : Nat) :
    Relocates place (Expr.map place) (parse levels) (parse levels) := by
  cases levels with
  | zero => exact fun _ _ _ reads => by cases reads
  | succ levels => exact disjunction_relocates (operand_relocates place levels)

theorem path_relocates (place : Position → Position) (levels : Nat) :
    Relocates place (Expr.map place) (path levels) (path levels) := by
  intro start next e reads
  obtain ⟨one, isPath⟩ := run_path_eq_ok.mp reads
  exact run_path_eq_ok.mpr ⟨operand_relocates place levels one, (isPath_map place e).trans isPath⟩

end Expr

theorem Parse.Reads.map {place : Position → Position} {p : Parse Expr} {e : Expr} {taken : List Lexeme}
    (reads : p.Reads e taken) (relocates : Relocates place (Expr.map place) p p) :
    p.Reads (e.map place) (taken.map (Lexeme.map place)) := by
  obtain ⟨start, next, reads, split⟩ := reads
  refine ⟨start.map place, next.map place, relocates reads, ?_⟩
  simp only [Pending.map, split, List.map_append]

/-- A part of a template whose spans are in other places. -/
def Phrase.map (place : Position → Position) : Phrase → Phrase
  | .statements all => .statements (Stmt.mapAll place all)
  | .tag stmt => .tag (stmt.map place)
  | .branches all otherwise => .branches (Stmt.mapBranches place all) (Stmt.mapOtherwise place otherwise)

namespace Stmt

variable {place : Position → Position} {source : List Char} {levels : Nat} {tokens : List Lexeme}

theorem MoreBound.map {bindings : List (String × Expr)} (bound : MoreBound levels bindings tokens) :
    MoreBound levels (Expr.mapBindings place bindings) (tokens.map (Lexeme.map place)) := by
  induction bound with
  | done ending => exact .done _
  | comma mark ending => exact .comma _ _
  | @bound path rest name key value more mark arrow text reads _ ih =>
    have text : stringText (name.map place).token = some key := text
    simpa using
      MoreBound.bound (mark.map place) (arrow.map place) text (reads.map (Expr.path_relocates place levels)) ih

theorem Bound.map {bindings : List (String × Expr)} (bound : Bound levels bindings tokens) :
    Bound levels (Expr.mapBindings place bindings) (tokens.map (Lexeme.map place)) := by
  cases bound with
  | none ending => exact .none _
  | @some path rest name key value more arrow text reads later =>
    have text : stringText (name.map place).token = .some key := text
    simpa using Bound.some (arrow.map place) text (reads.map (Expr.path_relocates place levels)) later.map

/-- A tag that declares nothing is one in other places and in another source. -/
theorem Tagged.map {opening : Span} {stmt : Stmt} (tagged : Tagged source levels opening stmt tokens)
    (plain : stmt.declarations = []) (other : List Char) :
    Tagged other levels (opening.map place) (stmt.map place) (tokens.map (Lexeme.map place)) := by
  have quotes {quoted : Lexeme} {name : String} (text : stringText quoted.token = some name) :
      stringText (quoted.map place).token = some name := text
  cases tagged with
  | @output value taken ending reads free =>
    have unnamed : ∀ first ∈ (taken.map (Lexeme.map place)).head?, ∀ keyword ∈ keywords,
        first.token ≠ .word keyword := by
      intro first found
      rw [List.head?_map] at found
      obtain ⟨before, front, rfl⟩ := Option.map_eq_some_iff.mp found
      exact free before front
    rw [map, Span.map_upTo, List.map_append]
    exact .output (ending.map place) (reads.map (Expr.parse_relocates place levels)) unnamed
  | layout => cases plain
  | capture => cases plain
  | fill keyword ending text =>
    rw [map, Span.map_upTo]
    exact .fill _ _ (quotes text)
  | each keyword named marks uses ending reads text =>
    rw [map, Span.map_upTo]
    simpa using Tagged.each (keyword.map place) (named.map place) (marks.map place) (uses.map place) (ending.map place)
      (reads.map (Expr.parse_relocates place levels)) (quotes text)
  | inclusion keyword ending text =>
    rw [map, Span.map_upTo]
    exact .inclusion _ _ (quotes text)
  | embedding keyword ending text =>
    rw [map, Span.map_upTo]
    exact .embedding _ _ (quotes text)
  | embeddingWith keyword marks bracket ending text bound =>
    rw [map, Span.map_upTo]
    simpa using Tagged.embeddingWith (keyword.map place) (marks.map place) (bracket.map place) (ending.map place)
      (quotes text) bound.map

/-- Tokens spell the same statements in other places and in another source, unless a tag among them declares
something. -/
theorem Spelled.map {phrase : Phrase} (spelled : Spelled source levels phrase tokens) (plain : phrase.declarations = [])
    (place : Position → Position) (other : List Char) :
    Spelled other levels (phrase.map place) (tokens.map (Lexeme.map place)) := by
  induction spelled with
  | done => exact .done
  | text raw span _ ih => exact .text raw (span.map place) (ih plain)
  | tag opening tagged _ ih =>
    obtain ⟨first, rest⟩ := List.append_eq_nil_iff.mp plain
    simpa [Phrase.map, mapAll] using Spelled.tag (opening.map place) (tagged.map first other) (ih rest)
  | conditional opening keyword ending reads _ _ ihInner ihRest =>
    obtain ⟨first, rest⟩ := List.append_eq_nil_iff.mp plain
    have inner := ihInner first
    simp only [Phrase.map, mapBranches] at inner
    simpa [Phrase.map, mapAll, Stmt.map, mapBranches] using Spelled.conditional (opening.map place) (keyword.map place)
      (ending.map place) (reads.map (Expr.parse_relocates place _)) inner (ihRest rest)
  | lastBranch ending opening keyword _ ih =>
    have body := ih (List.append_eq_nil_iff.mp (List.append_eq_nil_iff.mp plain).1).1
    simpa [Phrase.map, mapBranches, mapOtherwise] using
      Spelled.lastBranch (ending.map place) (opening.map place) (keyword.map place) body
  | otherwise ending opening keyword ending' opening' keyword' _ _ ihBody ihOther =>
    obtain ⟨branches, other⟩ := List.append_eq_nil_iff.mp plain
    have body := ihBody (List.append_eq_nil_iff.mp branches).1
    simpa [Phrase.map, mapBranches, mapOtherwise] using Spelled.otherwise (ending.map place) (opening.map place)
      (keyword.map place) (ending'.map place) (opening'.map place) (keyword'.map place) body (ihOther other)
  | anotherBranch ending opening keyword _ reads _ ihBody ihOthers =>
    obtain ⟨branches, other⟩ := List.append_eq_nil_iff.mp plain
    obtain ⟨body, others⟩ := List.append_eq_nil_iff.mp branches
    have later := ihOthers (List.append_eq_nil_iff.mpr ⟨others, other⟩)
    simp only [Phrase.map, mapBranches] at later
    simpa [Phrase.map, mapBranches] using Spelled.anotherBranch (ending.map place) (opening.map place)
      (keyword.map place) (ihBody body) (reads.map (Expr.parse_relocates place _)) later

/-- Behind statements more of them may be spelled. -/
theorem Spelled.append {first second : List Stmt} {taken later : List Lexeme}
    (spelled : Spelled source levels (.statements first) taken)
    (behind : Spelled source levels (.statements second) later) :
    Spelled source levels (.statements (first ++ second)) (taken ++ later) := by
  generalize whole : Phrase.statements first = phrase at spelled
  induction spelled generalizing first with
  | done =>
    obtain rfl := Phrase.statements.inj whole
    exact behind
  | text raw span _ ih =>
    obtain rfl := Phrase.statements.inj whole
    exact .text raw span (ih behind rfl)
  | tag opening tagged _ ih =>
    obtain rfl := Phrase.statements.inj whole
    rw [List.cons_append, List.cons_append, List.append_assoc]
    exact .tag opening tagged (ih behind rfl)
  | conditional opening keyword ending reads inner _ _ ih =>
    obtain rfl := Phrase.statements.inj whole
    simpa using Spelled.conditional opening keyword ending reads inner (ih behind rfl)
  | lastBranch | otherwise | anotherBranch => cases whole

end Stmt

/-- No tag among some tokens extends a template or declares a section. -/
def DeclaresNothing (tokens : List Lexeme) : Prop :=
  ∀ keyword ∈ ["extends", "section"], ¬[Token.tagStart, .word keyword] <:+: tokensOf tokens

instance (tokens : List Lexeme) : Decidable (DeclaresNothing tokens) :=
  inferInstanceAs
    (Decidable (∀ keyword ∈ ["extends", "section"], ¬[Token.tagStart, .word keyword] <:+: tokensOf tokens))

theorem DeclaresNothing.part {part tokens : List Lexeme} (nothing : DeclaresNothing tokens)
    (within : part <:+: tokens) : DeclaresNothing part := by
  intro keyword declares found
  exact nothing keyword declares (found.trans (within.map _))

namespace Stmt

variable {source : List Char} {levels : Nat} {tokens : List Lexeme}

theorem Tagged.declarations_eq {opening : Span} {stmt : Stmt} (tagged : Tagged source levels opening stmt tokens)
    (nothing : DeclaresNothing (⟨.tagStart, opening⟩ :: tokens)) : stmt.declarations = [] := by
  cases tagged with
  | layout => exact absurd ⟨[], _, rfl⟩ (nothing "extends" (by decide))
  | capture => exact absurd ⟨[], _, rfl⟩ (nothing "section" (by decide))
  | output | fill | each | inclusion | embedding | embeddingWith => rfl

/-- Only a tag that extends a template or declares a section declares something. -/
theorem Spelled.declarations_eq {phrase : Phrase} (spelled : Spelled source levels phrase tokens)
    (nothing : DeclaresNothing tokens) : phrase.declarations = [] := by
  induction spelled with
  | done => rfl
  | text raw span _ ih => exact ih (nothing.part (List.suffix_cons _ _).isInfix)
  | @tag _ stmt rest inner later opening tagged _ ih =>
    have first : stmt.declarations = [] :=
      tagged.declarations_eq (nothing.part (List.prefix_append (⟨.tagStart, opening⟩ :: inner) later).isInfix)
    have others : allDeclarations rest = [] :=
      ih (nothing.part ⟨⟨.tagStart, opening⟩ :: inner, [], by simp⟩)
    exact List.append_eq_nil_iff.mpr ⟨first, others⟩
  | @conditional levels first body others otherwise rest condition inner later opening keyword ending _ _ _ ihInner
      ihRest =>
    have branches : (Phrase.branches ((first, body) :: others) otherwise).declarations = [] :=
      ihInner (nothing.part
        ⟨⟨.tagStart, opening⟩ :: ⟨.word "if", keyword⟩ :: condition, ⟨.tagEnd, ending⟩ :: later, by simp⟩)
    have behind : allDeclarations rest = [] :=
      ihRest (nothing.part ⟨⟨.tagStart, opening⟩ :: ⟨.word "if", keyword⟩ :: (condition ++ (inner ++
        [⟨.tagEnd, ending⟩])), [], by simp⟩)
    exact List.append_eq_nil_iff.mpr ⟨branches, behind⟩
  | @lastBranch _ condition body inner ending opening keyword _ ih =>
    have body : allDeclarations body = [] :=
      ih (nothing.part ⟨[⟨.tagEnd, ending⟩], [⟨.tagStart, opening⟩, ⟨.word "endif", keyword⟩], by simp⟩)
    simpa [Phrase.declarations, branchDeclarations, otherwiseDeclarations] using body
  | @otherwise _ condition body other inner last ending opening keyword ending' opening' keyword' _ _ ihBody ihOther =>
    have body : allDeclarations body = [] :=
      ihBody (nothing.part ⟨[⟨.tagEnd, ending⟩], _, by rw [List.singleton_append, List.cons_append]⟩)
    have other : allDeclarations other = [] :=
      ihOther (nothing.part ⟨⟨.tagEnd, ending⟩ ::
          (inner ++ [⟨.tagStart, opening⟩, ⟨.word "else", keyword⟩, ⟨.tagEnd, ending'⟩]),
        [⟨.tagStart, opening'⟩, ⟨.word "endif", keyword'⟩], by simp⟩)
    simpa [Phrase.declarations, branchDeclarations, otherwiseDeclarations] using ⟨body, other⟩
  | @anotherBranch _ condition second body next others otherwise inner taken later ending opening keyword _ _ _ ihBody
      ihOthers =>
    have body : allDeclarations body = [] :=
      ihBody (nothing.part ⟨[⟨.tagEnd, ending⟩], _, by rw [List.singleton_append, List.cons_append]⟩)
    have others : (Phrase.branches ((second, next) :: others) otherwise).declarations = [] :=
      ihOthers (nothing.part
        ⟨⟨.tagEnd, ending⟩ :: (inner ++ ⟨.tagStart, opening⟩ :: ⟨.word "elseif", keyword⟩ :: taken), [], by simp⟩)
    simpa [Phrase.declarations, branchDeclarations, body] using others

end Stmt

namespace Template

variable {first second name : String} {start behind : Template}

/-- A source is read as the template that its tokens spell. -/
theorem parse_of_spelledAs {text : String} {all : List Stmt} (spelled : SpelledAs text.toList (Source.start text) all)
    (name : String) : ∃ template, parse text name = .ok template ∧ template.children = all := by
  obtain ⟨template, parsed, children⟩ := parseFrom_spelledAs.mpr spelled
  refine ⟨template, ?_, children⟩
  rw [parse, parsed]

theorem parse_spelledAs {text : String} {template : Template} (parses : parse text name = .ok template) :
    SpelledAs text.toList (Source.start text) template.children :=
  parseFrom_spelledAs.mp ⟨template, (Accepted.whole parses).parseFrom, rfl⟩

/-- Where the first of two templates ends with the end of a tag and both declare nothing, they are read one behind
the other as the statements of both. -/
theorem parse_append (ends : Source.EndsWithTag first) (nothing : DeclaresNothing (Source.lexemes first).tokens)
    (nothing' : DeclaresNothing (Source.lexemes second).tokens) (parses : parse first name = .ok start)
    (parses' : parse second name = .ok behind) :
    start.declarations = [] ∧ behind.declarations = [] ∧ ∃ both, parse (first ++ second) name = .ok both ∧
      both.declarations = [] ∧
      Stmt.bareAll both.children = Stmt.bareAll start.children ++ Stmt.bareAll behind.children := by
  obtain ⟨-, spelled, -⟩ := parse_spelledAs parses
  obtain ⟨whole, spelled', -⟩ := parse_spelledAs parses'
  have plain : start.declarations = [] := spelled.declarations_eq nothing
  have plain' : behind.declarations = [] := spelled'.declarations_eq nothing'
  let place : Position → Position := (Position.behind first.toList).beyond
  let all : List Stmt := Stmt.mapAll id start.children ++ Stmt.mapAll place behind.children
  have bare : Stmt.bareAll all = Stmt.bareAll start.children ++ Stmt.bareAll behind.children := by
    rw [Stmt.bareAll_append, Stmt.bareAll_map, Stmt.bareAll_map]
  have declared : Stmt.allDeclarations all = [] := by
    rw [← Stmt.allDeclarations_bare, bare, Stmt.allDeclarations_append, Stmt.allDeclarations_bare,
      Stmt.allDeclarations_bare]
    exact List.append_eq_nil_iff.mpr ⟨plain, plain'⟩
  have cut : (Source.start (first ++ second)).lexemes = _ := Source.lexemes_append ends second
  have unmoved : (Source.lexemes first).tokens.map (Lexeme.map id) = (Source.lexemes first).tokens := List.map_id _
  have front := spelled.map plain id (first ++ second).toList
  have statements := front.append (spelled'.map plain' place (first ++ second).toList)
  have spelledBoth : SpelledAs (first ++ second).toList (Source.start (first ++ second)) all := by
    refine ⟨?_, ?_, ?_⟩
    · rw [cut]
      exact whole
    · rw [cut, ← unmoved]
      exact statements
    · constructor
      · rw [declared]
        exact List.nodup_nil
      · rw [declared]
        exact Nat.zero_le 1
  obtain ⟨both, parsesBoth, children⟩ := parse_of_spelledAs spelledBoth name
  refine ⟨plain, plain', both, parsesBoth, ?_, ?_⟩
  · rw [declarations, children]
    exact declared
  · rw [children]
    exact bare

end Template

end TextTemplate
