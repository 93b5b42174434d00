import TextTemplate.Proofs.Syntax.Depth
import TextTemplate.Proofs.Syntax.Statements
import TextTemplate.Syntax.Parser

/-!
The limit on how deeply statements nest: what is read takes fewer levels, and a higher limit changes what becomes
of a source only where this one is met, which is where so many levels are taken.
-/
namespace TextTemplate

open Parse

namespace Stmt

variable {limit conditionals levels higher : Nat} {start next : Pending} {depth : Depth} {source : List Char}

section InTag

variable (known : (Depth.within conditionals 0).levels < limit)

include known

theorem quotedName_steady (expected : String) :
    Steady limit (.within conditionals 0) (quotedName expected) (quotedName expected) :=
  (steady_expect known _ fun _ _ => Token.isPlain_of_means stringText rfl rfl rfl).follow fun _ known => steady_pure known _

theorem endOfTag_steady : Steady limit (.within conditionals 0) endOfTag endOfTag :=
  steady_expectToken known _ rfl

theorem layoutTag_steady : Steady limit (.within conditionals 0) layoutTag layoutTag := by
  refine (steady_pending known).follow fun _ known => ?_
  split
  · exact guards_fail _
  · have notes : Steady limit (.within conditionals 0) noteLayout noteLayout := by
      intro start
      exact .read [] rfl known rfl
    refine notes.follow fun _ known => ?_
    refine (quotedName_steady known _).follow fun _ known => ?_
    exact (endOfTag_steady known).follow fun _ known => steady_pure known _

end InTag

/-- The levels that a limit leaves for expressions in some conditionals. -/
theorem leaves_of_add (left : conditionals + levels = limit) : Expr.Leaves limit conditionals 0 levels := by
  unfold Expr.Leaves
  omega

theorem eachTag_steady (known : (Depth.within conditionals 0).levels < limit) (more : levels ≤ higher)
    (left : conditionals + levels = limit) :
    Steady limit (.within conditionals 0) (eachTag levels) (eachTag higher) := by
  refine (steady_expect known _ fun _ _ => Token.isPlain_of_means Expr.wordName rfl rfl rfl).follow fun _ known => ?_
  refine (steady_expectToken known _ rfl).follow fun _ known => ?_
  refine ((Expr.levels_steady levels more).1 (leaves_of_add left)).follow fun _ known => ?_
  refine (steady_expectToken known _ rfl).follow fun _ known => ?_
  refine (quotedName_steady known _).follow fun _ known => ?_
  exact (endOfTag_steady known).follow fun _ known => steady_pure known _

theorem binding_steady (known : (Depth.within conditionals 0).levels < limit) (more : levels ≤ higher)
    (left : conditionals + levels = limit) :
    Steady limit (.within conditionals 0) (binding levels) (binding higher) := by
  have paths : Expr.Leaves limit conditionals 0 (levels + 1) := by
    unfold Expr.Leaves
    omega
  refine (quotedName_steady known _).follow fun _ known => ?_
  refine (steady_expectToken known _ rfl).follow fun _ known => ?_
  exact (Expr.path_steady more paths).follow fun _ known => steady_pure known _

theorem moreBindings_steady (known : (Depth.within conditionals 0).levels < limit) (more : levels ≤ higher)
    (left : conditionals + levels = limit) :
    Steady limit (.within conditionals 0) (moreBindings levels) (moreBindings higher) := by
  refine guards_rounds fun {start} again => ?_
  rw [run_moreBindings, run_moreBindings]
  refine (steady_skip known rfl start).follow fun closed next skips known => ?_
  dsimp only
  split
  · exact .pure known rfl
  refine (steady_expect known _ (fun _ _ => isPlain_of_isToken rfl) next).follow fun comma next' commas known => ?_
  refine (steady_skip known rfl next').follow fun closed next'' skips' known => ?_
  dsimp only
  split
  · exact .pure known rfl
  refine (binding_steady known more left next'').follow fun bound last binds known => ?_
  have shorter : last.size < start.size := by
    have := size_lt_of_expect commas
    have := size_le_of_run skips
    have := size_le_of_run skips'
    have := size_le_of_run binds
    omega
  refine (again shorter).follow fun _ _ _ known => ?_
  exact .pure known rfl

theorem bindings_steady (known : (Depth.within conditionals 0).levels < limit) (more : levels ≤ higher)
    (left : conditionals + levels = limit) :
    Steady limit (.within conditionals 0) (bindings levels) (bindings higher) := by
  refine (steady_skip known rfl).follow fun _ known => ?_
  split
  · exact steady_pure known _
  · refine (binding_steady known more left).follow fun _ known => ?_
    exact (moreBindings_steady known more left).follow fun _ known => steady_pure known _

theorem embedTag_steady (known : (Depth.within conditionals 0).levels < limit) (more : levels ≤ higher)
    (left : conditionals + levels = limit) :
    Steady limit (.within conditionals 0) (embedTag levels) (embedTag higher) := by
  refine (quotedName_steady known _).follow fun _ known => ?_
  refine (steady_skip known rfl).follow fun _ known => ?_
  split
  · refine (steady_expectToken known _ rfl).follow fun _ known => ?_
    refine (bindings_steady known more left).follow fun _ known => ?_
    exact (endOfTag_steady known).follow fun _ known => steady_pure known _
  · exact (endOfTag_steady known).follow fun _ known => steady_pure known _

theorem output_steady (more : levels ≤ higher) (left : conditionals + levels = limit) (opening : Span) :
    Steady limit (.within conditionals 0) (tag.output levels opening) (tag.output higher opening) := by
  refine ((Expr.levels_steady levels more).1 (leaves_of_add left)).follow fun _ known => ?_
  refine (endOfTag_steady known).follow fun _ known => ?_
  exact (steady_spanFrom known _).follow fun _ known => steady_pure known _

/-- Behind a section, as much stands open as in front of it. -/
theorem past_section {inner : List Lexeme} (close closing ending : Span) (inside : depth.inSection = true)
    (free : holdsSectionTag inner = false)
    (apart : depth.opening = true → ∀ first ∈ inner.head?, first.token ≠ .word "endsection") :
    depth.past (inner ++ sectionClose close closing ending) = { depth with inSection := false, opening := false } ∧
      depth.deepest (inner ++ sectionClose close closing ending) = depth.levels := by
  induction inner generalizing depth with
  | nil =>
    obtain ⟨conditionals, parens, inSection, opening⟩ := depth
    obtain rfl : inSection = true := inside
    simp [sectionClose, Depth.behind, Depth.deepest, Depth.levels]
  | cons first inner ih =>
    have later : holdsSectionTag inner = false := by
      cases inner with
      | nil => rfl
      | cons ahead inner => exact (holdsSectionTag_cons_eq_false.mp free).2
    have stays : depth.behind first.token = { depth with opening := first.token == .tagStart } := by
      have goesOn : (depth.opening && first.token == .word "endsection") = false := by
        cases opens : depth.opening with
        | false => rfl
        | true => simpa using apart opens first rfl
      unfold Depth.behind
      rw [if_pos inside, goesOn, Bool.not_false, ← inside]
    have next : (first.token == .tagStart) = true → ∀ ahead ∈ inner.head?, ahead.token ≠ .word "endsection" := by
      intro opens ahead found
      obtain ⟨inner, rfl⟩ := List.head?_eq_some_iff.mp found
      exact ((holdsSectionTag_cons_eq_false.mp free).1.resolve_left (not_not_intro (eq_of_beq opens))).2
    have inside' : ({ depth with opening := first.token == .tagStart } : Depth).inSection = true := inside
    obtain ⟨past, deepest⟩ := ih inside' later next
    rw [List.cons_append, Depth.past_cons, Depth.deepest, stays, past, deepest]
    exact ⟨rfl, Nat.max_self _⟩

theorem sectionTag_guards (known : (Depth.within conditionals 0).levels < limit) :
    Guards limit (.inBody conditionals) (fun _ _ after => after = .within conditionals 0) (sectionTag source)
      (sectionTag source) := by
  intro start
  cases reads : (sectionTag source).run start with
  | error misread => exact .failed
  | ok result =>
    obtain ⟨⟨name, body⟩, next⟩ := result
    obtain ⟨quoted, tagEnd, inner, close, closing, ending, rest, text, free, -, -, front, rfl⟩ :=
      run_sectionTag_eq_ok.mp reads
    have named : (Depth.inBody conditionals).behind quoted.token = .inBody conditionals := by
      cases token : quoted.token with
      | plainString | escapedString => rfl
      | _ =>
        rw [token] at text
        cases text
    have ends : (Depth.inBody conditionals).behind .tagEnd = .inBody conditionals := rfl
    have inside : (Depth.inBody conditionals).inSection = true := rfl
    obtain ⟨past, deepest⟩ := past_section close closing ending inside free nofun
    have split : start.tokens =
        (quoted :: ⟨.tagEnd, tagEnd⟩ :: (inner ++ sectionClose close closing ending)) ++ rest := front
    refine .read _ split ?_ ?_
    · rw [Depth.deepest, Depth.deepest, named, ends, deepest, Nat.max_self, Nat.max_self]
      exact known
    · rw [Depth.past_cons, Depth.past_cons, named, ends, past]
      rfl

/-- What stands open behind the first token of an expression does not depend on whether it starts the tag. -/
theorem behind_atTag {token : Token} (conditionals : Nat) (free : ∀ keyword ∈ keywords, token ≠ .word keyword) :
    (Depth.atTag conditionals).behind token = (Depth.within conditionals 0).behind token := by
  cases token with
  | word name =>
    have free : name ∉ keywords := fun found => free name found rfl
    show { (Depth.atTag conditionals).keyword name with opening := false } = Depth.within conditionals 0
    unfold Depth.keyword
    split
    · exact absurd (by decide) free
    · exact absurd (by decide) free
    · exact absurd (by decide) free
    · rfl
  | _ => rfl

/-- An expression that starts a tag. -/
theorem output_guarded {first : Lexeme} {rest : List Lexeme} (front : start.tokens = first :: rest)
    (free : ∀ keyword ∈ keywords, first.token ≠ .word keyword) (more : levels ≤ higher)
    (left : conditionals + levels = limit) (opening : Span) :
    Guarded limit (.atTag conditionals) (fun _ _ after => after = .within conditionals 0) start
      ((tag.output levels opening).run start) ((tag.output higher opening).run start) := by
  have same := behind_atTag conditionals free
  have deepest (taken : List Lexeme) (later : List Lexeme) (split : start.tokens = taken ++ later) :
      (Depth.atTag conditionals).deepest taken = (Depth.within conditionals 0).deepest taken := by
    cases taken with
    | nil => rfl
    | cons other taken =>
      obtain ⟨rfl, -⟩ := List.cons.inj (front.symm.trans split)
      rw [Depth.deepest, Depth.deepest, same]
      rfl
  have guarded := output_steady more left opening start
  generalize low : (tag.output levels opening).run start = x at guarded
  generalize (tag.output higher opening).run start = y at guarded
  cases guarded with
  | failed => exact .failed
  | tooNested taken split deep => exact .tooNested taken split (by rwa [deepest _ _ split])
  | read taken split shallow post =>
    refine .read taken split (by rwa [deepest _ _ split]) ?_
    cases taken with
    | cons other taken =>
      obtain ⟨rfl, -⟩ := List.cons.inj (front.symm.trans split)
      rwa [Depth.past_cons, same]
    | nil =>
      -- an expression is at least one token
      obtain ⟨value, taken, ending, rest, -, tokens, -, rfl⟩ := run_output_eq_ok.mp low
      have lengths := congrArg List.length (split.symm.trans tokens)
      simp only [Pending.past, List.length_append, List.length_cons, List.nil_append] at lengths
      omega

/-- A tag that starts with a keyword goes on behind it. -/
theorem keyword_guarded {word : String} {keyword : Span} {rest : List Lexeme} {f g : Option Token → Parse Stmt}
    {reader reader' other other' : Parse Stmt} {Q : Stmt → Pending → Depth → Prop}
    (front : start.tokens = ⟨.word word, keyword⟩ :: rest) (listed : keywords.contains word = true)
    (low : f (some (.word word)) = if keywords.contains word then (do let _ ← take ""; reader) else other)
    (high : g (some (.word word)) = if keywords.contains word then (do let _ ← take ""; reader') else other')
    (known : depth.levels < limit)
    (guarded : Guarded limit (depth.behind (.word word)) Q (start.behind ⟨.word word, keyword⟩ rest)
      (reader.run (start.behind ⟨.word word, keyword⟩ rest)) (reader'.run (start.behind ⟨.word word, keyword⟩ rest))) :
    Guarded limit depth Q start ((peek >>= f).run start) ((peek >>= g).run start) := by
  rw [run_bind, run_bind, run_peek_cons front]
  show Guarded limit depth Q start ((f (some (.word word))).run start) ((g (some (.word word))).run start)
  rw [low, high, if_pos listed, if_pos listed, run_bind, run_bind, run_take_cons front]
  have split : start.tokens = [⟨.word word, keyword⟩] ++ (start.behind ⟨.word word, keyword⟩ rest).tokens := front
  exact .prepend split (fun later => Nat.max_lt.mpr ⟨known, later⟩) guarded

/-- A tag whose first token is no keyword is an expression. -/
theorem run_tag_output {conditional : Parse Branches} {opening : Span} {first : Lexeme} {rest : List Lexeme}
    (front : start.tokens = first :: rest) (free : ∀ keyword ∈ keywords, first.token ≠ .word keyword) :
    (tag source levels conditional opening).run start = (tag.output levels opening).run start := by
  rw [tag, run_bind, run_peek_cons front]
  obtain ⟨token, span⟩ := first
  cases token with
  | word word =>
    have unlisted : ¬keywords.contains word = true := fun listed => free word (List.contains_iff_mem.mp listed) rfl
    show (if keywords.contains word then _ else tag.output levels opening : Parse Stmt).run start = _
    rw [if_neg unlisted]
  | _ => rfl

theorem tag_guards {conditional conditional' : Parse Branches} {opening : Span}
    (known : (Depth.within conditionals 0).levels < limit) (more : levels ≤ higher)
    (left : conditionals + levels = limit)
    (inside : Guards limit (.within (conditionals + 1) 0) (fun _ _ after => after = .within conditionals 0) conditional
      conditional') :
    Guards limit (.atTag conditionals) (fun _ _ after => after = .within conditionals 0)
      (tag source levels conditional opening) (tag source higher conditional' opening) := by
  intro start
  have spanned (stmt : Span → Stmt) (known : (Depth.within conditionals 0).levels < limit) :
      Steady limit (.within conditionals 0) (do return stmt (← spanFrom opening))
        (do return stmt (← spanFrom opening)) :=
    (steady_spanFrom known _).follow fun _ known => steady_pure known _
  have named (expected : String) (stmt : String → Span → Stmt) :
      Steady limit (.within conditionals 0)
        (do
          let name ← quotedName expected
          let _ ← endOfTag
          return stmt name (← spanFrom opening))
        (do
          let name ← quotedName expected
          let _ ← endOfTag
          return stmt name (← spanFrom opening)) :=
    (quotedName_steady known _).follow fun name known => (endOfTag_steady known).follow fun _ known =>
      spanned (stmt name) known
  cases front : start.tokens with
  | nil =>
    rw [tag, tag, run_bind, run_bind, run_peek, ahead, front]
    cases start.problem with
    | some problem => exact .failed
    | none => exact .failed
  | cons first rest =>
    by_cases listed : ∃ keyword ∈ keywords, first.token = .word keyword
    · obtain ⟨token, span⟩ := first
      obtain ⟨word, listed, rfl⟩ := listed
      simp only [keywords, List.mem_cons, List.not_mem_nil, or_false] at listed
      -- one case for each keyword, in the order of the list; those that end or continue a block start no tag
      rcases listed with rfl | rfl | rfl | rfl | rfl | rfl | rfl | rfl | rfl | rfl | rfl
      · refine keyword_guarded front (by decide) rfl rfl known ?_
        exact (layoutTag_steady known).follow (fun layout known => spanned _ known) _
      · refine keyword_guarded front (by decide) rfl rfl known ?_
        exact (sectionTag_guards known).follow (fun body known => spanned _ known) _
      · exact keyword_guarded front (by decide) rfl rfl known .failed
      · exact keyword_guarded front (by decide) rfl rfl known (named _ _ _)
      · refine keyword_guarded front (by decide) rfl rfl known ?_
        exact inside.follow (fun body known => spanned _ known) _
      · exact keyword_guarded front (by decide) rfl rfl known .failed
      · exact keyword_guarded front (by decide) rfl rfl known .failed
      · exact keyword_guarded front (by decide) rfl rfl known .failed
      · refine keyword_guarded front (by decide) rfl rfl known ?_
        exact (eachTag_steady known more left).follow (fun _ known => spanned _ known) _
      · exact keyword_guarded front (by decide) rfl rfl known (named _ _ _)
      · refine keyword_guarded front (by decide) rfl rfl known ?_
        exact (embedTag_steady known more left).follow (fun _ known => spanned _ known) _
    · have free : ∀ keyword ∈ keywords, first.token ≠ .word keyword := fun keyword found same =>
        listed ⟨keyword, found, same⟩
      rw [run_tag_output front free, run_tag_output front free]
      exact output_guarded front free more left opening

/-- Where a block ends in some conditionals: at a tag that stops it, or where the tokens end. -/
def Ends (conditionals : Nat) (stops : Token → Bool) (next : Pending) (after : Depth) : Prop :=
  after = .atTag conditionals ∧ (∃ first ∈ next.tokens.head?, stops first.token = true) ∨
    after = .within conditionals 0 ∧ next.tokens = []

theorem block_guards {tag tag' : Span → Parse Stmt} (stops : Token → Bool)
    (known : (Depth.within conditionals 0).levels < limit)
    (tags : ∀ opening, Guards limit (.atTag conditionals) (fun _ _ after => after = .within conditionals 0) (tag opening)
      (tag' opening)) :
    Guards limit (.within conditionals 0) (fun _ => Ends conditionals stops) (block tag stops) (block tag' stops) := by
  refine guards_rounds fun {start} again => ?_
  rw [run_block, run_block]
  cases front : start.tokens with
  | nil => exact .ended known (.inr ⟨rfl, front⟩)
  | cons first rest =>
    have shorter := Pending.behind_size front
    obtain ⟨token, span⟩ := first
    cases token with
    | text raw =>
      exact .plain front rfl ((again shorter).bind fun all next after _ ends known => .pure known ends)
    | tagStart =>
      have opened : (Depth.atTag conditionals).levels < limit := known
      refine .cons front (Nat.le_refl _) ((steady_peek opened _).follow fun token next peeks opened => ?_)
      obtain ⟨rfl, ahead⟩ := run_peek_eq_ok peeks
      dsimp only
      split
      · rename_i stopped
        rw [ahead] at stopped
        refine .pure opened (.inl ⟨rfl, ?_⟩)
        cases rest with
        | nil => cases stopped
        | cons first rest => exact ⟨first, rfl, stopped⟩
      · refine (tags span _).follow fun stmt next reads known => ?_
        have shorter := Nat.lt_of_le_of_lt (size_le_of_run reads) shorter
        exact (again shorter).bind fun all next after _ ends known => .pure known ends
    | _ => exact .failed

/-- What stands open behind a branch of a conditional: the conditional itself, if another branch follows. -/
def openBehind (conditionals : Nat) : AfterBranch → Depth
  | .branch _ => .within (conditionals + 1) 0
  | .done _ => .within conditionals 0

section Conditional

variable {condition condition' : Parse Expr} {body body' : (Token → Bool) → Parse (List Stmt)}
  (conditions : Steady limit (.within (conditionals + 1) 0) condition condition')
  (bodies : (Depth.within (conditionals + 1) 0).levels < limit → ∀ stops,
    Guards limit (.within (conditionals + 1) 0) (fun _ => Ends (conditionals + 1) stops) (body stops) (body' stops))

/-- The word that ends a conditional, where the block in front of it ended. -/
theorem endif_guarded (ends : Ends (conditionals + 1) endsConditional start depth) (known : depth.levels < limit) :
    Guarded limit depth (fun _ _ after => after = .within conditionals 0) start
      ((expectToken "endif" (.word "endif")).run start) ((expectToken "endif" (.word "endif")).run start) := by
  cases reads : (expectToken "endif" (.word "endif")).run start with
  | error misread => exact .failed
  | ok result =>
    obtain ⟨span, next⟩ := result
    obtain ⟨rest, front, rfl⟩ := run_expectToken_eq_ok.mp reads
    obtain ⟨rfl, -⟩ | ⟨-, none⟩ := ends
    · refine .read [⟨.word "endif", span⟩] front (Nat.max_lt.mpr ⟨known, ?_⟩) rfl
      exact Nat.lt_of_succ_lt known
    · cases front.symm.trans none

include conditions bodies

theorem afterBranch_guarded (ends : Ends (conditionals + 1) endsBranch start depth) (known : depth.levels < limit) :
    Guarded limit depth (fun behind _ after => after = openBehind conditionals behind) start
      ((afterBranch condition body).run start) ((afterBranch condition' body').run start) := by
  rw [afterBranch, afterBranch, run_bind, run_bind]
  obtain ⟨rfl, first, found, stops⟩ | ⟨rfl, front⟩ := ends
  · obtain ⟨rest, front⟩ := List.head?_eq_some_iff.mp found
    obtain ⟨token, span⟩ := first
    have inside : (Depth.within (conditionals + 1) 0).levels < limit := known
    have takes {word : String} (front : start.tokens = ⟨.word word, span⟩ :: rest) :
        (expect "endif" Expr.wordName).run start = .ok ((word, span), start.behind ⟨.word word, span⟩ rest) :=
      run_expect_eq_ok.mpr ⟨_, rest, front, rfl, rfl, rfl⟩
    rcases endsBranch_cases stops with rfl | rfl | rfl
    · rw [takes front]
      refine .cons front (Nat.le_refl _) ?_
      exact conditions.follow (fun second known next => .pure known rfl) _
    · rw [takes front]
      refine .cons front (Nat.le_refl _) ?_
      refine (endOfTag_steady inside).follow (fun _ known => ?_) _
      refine (bodies known endsConditional).bind fun other next after ends known => ?_
      rw [run_bind]
      exact (endif_guarded ends known).follow fun _ next _ known => .pure known rfl
    · rw [takes front]
      refine .read [⟨.word "endif", span⟩] front (Nat.max_lt.mpr ⟨known, ?_⟩) rfl
      exact Nat.lt_of_succ_lt known
  · rw [run_expect, run_take_nil front]
    exact .failed

theorem branches_guards (known : (Depth.within (conditionals + 1) 0).levels < limit) (first : Expr) :
    Guards limit (.within (conditionals + 1) 0) (fun _ _ after => after = .within conditionals 0)
      (branches condition body first) (branches condition' body' first) := by
  refine guards_loop (fun {first start} again => ?_) first
  rw [run_branches, run_branches]
  have tagEnds : Steady limit (.within (conditionals + 1) 0) (expect "end of tag" (isToken .tagEnd))
      (expect "end of tag" (isToken .tagEnd)) :=
    steady_expect known _ fun _ _ => isPlain_of_isToken rfl
  refine (tagEnds start).follow fun ending next ends known => ?_
  refine (bodies known endsBranch next).bind fun inner next' after reads closes known => ?_
  refine (afterBranch_guarded conditions bodies closes known).bind fun behind next'' after goes same known => ?_
  subst same
  cases behind with
  | done otherwise => exact .pure known rfl
  | branch second =>
    have shorter : next''.size < start.size := by
      have := size_lt_of_expect ends
      have := size_le_of_run reads
      have := size_le_of_run goes
      omega
    exact (again shorter).follow fun rest next _ known => .pure known rfl

theorem conditionalTag_guards :
    Guards limit (.within (conditionals + 1) 0) (fun _ _ after => after = .within conditionals 0)
      (conditionalTag condition body) (conditionalTag condition' body') := by
  refine conditions.follow fun first known => ?_
  refine (branches_guards conditions bodies known first).follow fun all known => ?_
  exact (endOfTag_steady known).follow fun _ known => steady_pure known _

end Conditional

/-- A limit of levels for statements is met where so many levels are taken. -/
theorem parse_guards (source : List Char) (more : levels ≤ higher) (left : conditionals + levels = limit)
    (known : (Depth.within conditionals 0).levels < limit) (stops : Token → Bool) :
    Guards limit (.within conditionals 0) (fun _ => Ends conditionals stops) (parse source levels stops)
      (parse source higher stops) := by
  induction levels generalizing conditionals higher stops with
  | zero =>
    have deep : limit ≤ (Depth.within (conditionals + 1) 0).levels + 1 := by
      show limit ≤ conditionals + 1 + 2 * 0 + 1
      omega
    rw [parse_eq_block, parse_eq_block]
    exact block_guards stops known fun opening => tag_guards known more left (guards_tooNested deep)
  | succ levels ih =>
    obtain ⟨higher, rfl⟩ : ∃ inner, higher = inner + 1 := ⟨higher - 1, by omega⟩
    have fewer : levels ≤ higher := Nat.le_of_succ_le_succ more
    have inner : conditionals + 1 + levels = limit := by omega
    have conditions := (Expr.levels_steady levels fewer).1 (leaves_of_add inner)
    rw [parse_eq_block, parse_eq_block]
    exact block_guards stops known fun opening => tag_guards known more left
      (conditionalTag_guards conditions fun known => ih fewer inner known)

end Stmt

/-- The most levels that conditionals and parentheses take somewhere in a source. -/
def Cursor.depth (start : Cursor) : Nat :=
  Depth.deepest {} start.lexemes.tokens

namespace Template

/-- The tree of a source in which as many levels as given may nest. -/
def parseWithin (limit : Nat) (source : List Char) (start : Cursor) : Except Misread Template :=
  let lexemes := start.lexemes
  let before : Position := ⟨start.position.line, 0, 0⟩
  let pending : Pending := { tokens := lexemes.tokens, problem := lexemes.problem, last := ⟨before, before⟩ }
  match Stmt.parse source limit (fun _ => false) pending with
  | .error e => .error e
  | .ok all => .ok ⟨all.value, pending.last.upTo all.next.last⟩

theorem parseFrom_eq_parseWithin : parseFrom = parseWithin maxSyntaxLevels := rfl

variable {limit higher : Nat}

/-- With a higher limit a source is read as the same tree, or fails alike, unless the lower limit is met. -/
theorem parseWithin_cases (some : 0 < limit) (more : limit ≤ higher) (source : List Char) (start : Cursor) :
    (∃ template, parseWithin limit source start = .ok template ∧ parseWithin higher source start = .ok template ∧
      start.depth < limit) ∨
    (∃ misread, parseWithin limit source start = .error misread ∧
      parseWithin higher source start = .error misread) ∨
    ∃ line, parseWithin limit source start = .error ⟨.tooNested, line⟩ ∧ limit ≤ start.depth + 1 := by
  let before : Position := ⟨start.position.line, 0, 0⟩
  let pending : Pending :=
    { tokens := start.lexemes.tokens, problem := start.lexemes.problem, last := ⟨before, before⟩ }
  have runs (limit : Nat) : parseWithin limit source start =
      ((Stmt.parse source limit fun _ => false).run pending).map fun all => ⟨all.1, pending.last.upTo all.2.last⟩ := by
    unfold parseWithin
    rw [run]
    dsimp only [pending, before]
    split
    · rename_i misread fails
      rw [fails]
      rfl
    · rename_i all reads
      rw [reads]
      rfl
  have guarded := Stmt.parse_guards source more (Nat.zero_add limit) some (fun _ => false) pending
  rw [runs limit, runs higher]
  generalize (Stmt.parse source limit fun _ => false).run pending = low at guarded ⊢
  generalize (Stmt.parse source higher fun _ => false).run pending = high at guarded ⊢
  cases guarded with
  | @read all next taken split shallow ends =>
    refine .inl ⟨_, rfl, rfl, ?_⟩
    obtain ⟨-, first, -, stops⟩ | ⟨-, ended⟩ := ends
    · cases stops
    · have whole : start.lexemes.tokens = taken := by
        rw [ended, List.append_nil] at split
        exact split
      rw [Cursor.depth, whole]
      exact shallow
  | failed => exact .inr (.inl ⟨_, rfl, rfl⟩)
  | @tooNested line rest _ taken split deep =>
    refine .inr (.inr ⟨line, rfl, Nat.le_trans deep (Nat.succ_le_succ ?_)⟩)
    have whole : start.lexemes.tokens = taken ++ rest := split
    rw [Cursor.depth, whole, Depth.deepest_append]
    exact Nat.le_max_left ..

end Template

end TextTemplate
