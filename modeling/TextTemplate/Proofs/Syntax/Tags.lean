import TextTemplate.Proofs.Syntax.Locality

/-!
The grammar of statements with the levels that are left for what nests, and the exact places of tags.
A tag that is no part of a conditional is read exactly from the tokens that it is written with, and if
it declares no section a second time and no second layout.
-/
namespace TextTemplate

open Parse

namespace Pending

/-- What is pending when something was declared. -/
def note (start : Pending) : Declaration → Pending
  | .layout _ => { start with hasLayout := true }
  | .capture name _ => { start with sections := name :: start.sections }

/-- Whether a declaration is no second one of its kind. -/
def Allows (start : Pending) : Declaration → Prop
  | .layout _ => start.hasLayout = false
  | .capture name _ => name ∉ start.sections

def Admits (start : Pending) : List Declaration → Prop
  | [] => True
  | declaration :: rest => start.Allows declaration ∧ (start.note declaration).Admits rest

/-- What is pending behind tokens that declare something. -/
def beyond (start : Pending) (declared : List Declaration) (taken rest : List Lexeme) : Pending :=
  (declared.foldl note start).past taken rest

variable {start : Pending} {one two declared : List Declaration} {declaration : Declaration}
  {taken later rest middle : List Lexeme} {next other : Pending}

theorem note_past : (start.past taken rest).note declaration = (start.note declaration).past taken rest := by
  cases declaration <;> rfl

theorem foldl_note_past (declared : List Declaration) (start : Pending) :
    declared.foldl note (start.past taken rest) = (declared.foldl note start).past taken rest := by
  induction declared generalizing start with
  | nil => rfl
  | cons declaration declared ih => rw [List.foldl_cons, List.foldl_cons, note_past, ih]

@[simp]
theorem beyond_tokens : (start.beyond declared taken rest).tokens = rest := rfl

@[simp]
theorem beyond_problem : (start.beyond declared taken rest).problem = start.problem := by
  unfold beyond past
  induction declared generalizing start with
  | nil => rfl
  | cons declaration declared ih =>
    rw [List.foldl_cons, ih]
    cases declaration <;> rfl

theorem beyond_refl (start : Pending) (front : start.tokens = rest) : start = start.beyond [] [] rest := by
  rw [← front]
  rfl

theorem beyond_beyond :
    (start.beyond one taken middle).beyond two later rest = start.beyond (one ++ two) (taken ++ later) rest := by
  rw [beyond, beyond, foldl_note_past, past_past, beyond, List.foldl_append]

theorem past_beyond : (start.past taken middle).beyond two later rest = start.beyond two (taken ++ later) rest :=
  show (start.beyond [] taken middle).beyond two later rest = _ from beyond_beyond

theorem behind_beyond (first : Lexeme) :
    (start.behind first middle).beyond two later rest = start.beyond two (first :: later) rest := by
  rw [behind_eq_past, past_beyond]
  rfl

theorem allows_past : (start.past taken rest).Allows declaration ↔ start.Allows declaration := by
  cases declaration <;> rfl

theorem admits_past : (start.past taken rest).Admits declared ↔ start.Admits declared := by
  induction declared generalizing start with
  | nil => rfl
  | cons declaration declared ih => rw [Admits, Admits, allows_past, note_past, ih]

theorem admits_append : start.Admits (one ++ two) ↔ start.Admits one ∧ (start.beyond one taken rest).Admits two := by
  rw [beyond, admits_past]
  induction one generalizing start with
  | nil => simp [Admits]
  | cons declaration one ih => rw [List.cons_append, Admits, Admits, ih, List.foldl_cons, and_assoc]

/-- Tokens that declare something lead from one place to another, and the declarations may stand there. -/
structure Declares (declared : List Declaration) (taken : List Lexeme) (start next : Pending) : Prop where
  front : start.tokens = taken ++ next.tokens
  admits : start.Admits declared
  beyond : next = start.beyond declared taken next.tokens

theorem Declares.refl (start : Pending) : Declares [] [] start start :=
  ⟨rfl, trivial, rfl⟩

theorem Declares.past (front : start.tokens = taken ++ rest) : Declares [] taken start (start.past taken rest) :=
  ⟨front, trivial, rfl⟩

theorem Declares.single {first : Lexeme} (front : start.tokens = first :: rest) :
    Declares [] [first] start (start.behind first rest) :=
  ⟨front, trivial, rfl⟩

theorem Passes.declares (passes : Passes taken start next) : Declares [] taken start next :=
  ⟨passes.split, trivial, passes.past⟩

theorem Declares.problem (declares : Declares declared taken start next) : next.problem = start.problem := by
  rw [declares.beyond, beyond_problem]

theorem Declares.shorter (declares : Declares declared taken start next) (some : taken ≠ []) :
    next.tokens.length < start.tokens.length := by
  have positive := List.length_pos_iff.mpr some
  rw [declares.front, List.length_append]
  omega

theorem Declares.trans (first : Declares one taken start next) (second : Declares two later next other) :
    Declares (one ++ two) (taken ++ later) start other := by
  refine ⟨?_, ?_, ?_⟩
  · rw [first.front, second.front, List.append_assoc]
  · rw [admits_append, ← first.beyond]
    exact ⟨first.admits, second.admits⟩
  · rw [← beyond_beyond, ← first.beyond]
    exact second.beyond

/-- Behind tokens that declare nothing, the later ones lead on. -/
theorem Declares.behind (declares : Declares declared (taken ++ later) start next) :
    start.tokens = taken ++ (later ++ next.tokens) ∧
      Declares declared later (start.past taken (later ++ next.tokens)) next := by
  have front := declares.front
  rw [List.append_assoc] at front
  exact ⟨front, rfl, admits_past.mpr declares.admits, declares.beyond.trans past_beyond.symm⟩

theorem Declares.behind_first {first : Lexeme} (declares : Declares declared (first :: later) start next) :
    start.tokens = first :: (later ++ next.tokens) ∧
      Declares declared later (start.behind first (later ++ next.tokens)) next := by
  have split : Declares declared ([first] ++ later) start next := declares
  exact split.behind

/-- Behind the first of two lists of tokens, the second one leads on. -/
theorem Declares.between (declares : Declares (one ++ two) (taken ++ later) start next) :
    Declares one taken start (start.beyond one taken (later ++ next.tokens)) ∧
      Declares two later (start.beyond one taken (later ++ next.tokens)) next := by
  obtain ⟨first, second⟩ := admits_append.mp declares.admits
  refine ⟨⟨?_, first, rfl⟩, rfl, second, ?_⟩
  · rw [declares.front, List.append_assoc]
    rfl
  · rw [beyond_beyond]
    exact declares.beyond

end Pending

namespace Stmt

/-- The tag that ends a section. -/
def sectionClose (close closing ending : Span) : List Lexeme :=
  [⟨.tagStart, close⟩, ⟨.word "endsection", closing⟩, ⟨.tagEnd, ending⟩]

/-- The tokens of bindings behind another one, up to the closing bracket. A comma may stand behind the last. -/
inductive MoreBound (levels : Nat) : List (String × Expr) → List Lexeme → Prop where
  | done (ending : Span) : MoreBound levels [] [⟨.bracketClose, ending⟩]
  | comma (mark ending : Span) : MoreBound levels [] [⟨.comma, mark⟩, ⟨.bracketClose, ending⟩]
  | bound {path : Expr} {rest : List (String × Expr)} {name : Lexeme} {key : String} {value more : List Lexeme}
    (mark arrow : Span) :
    stringText name.token = some key → (Expr.path levels).Reads path value → MoreBound levels rest more →
    MoreBound levels ((key, path) :: rest) (⟨.comma, mark⟩ :: name :: ⟨.arrow, arrow⟩ :: (value ++ more))

/-- The tokens of the bindings of an embedding, up to the closing bracket. -/
inductive Bound (levels : Nat) : List (String × Expr) → List Lexeme → Prop where
  | none (ending : Span) : Bound levels [] [⟨.bracketClose, ending⟩]
  | some {path : Expr} {rest : List (String × Expr)} {name : Lexeme} {key : String} {value more : List Lexeme}
    (arrow : Span) :
    stringText name.token = some key → (Expr.path levels).Reads path value → MoreBound levels rest more →
    Bound levels ((key, path) :: rest) (name :: ⟨.arrow, arrow⟩ :: (value ++ more))

/-- The tokens of a tag that is no part of a conditional, behind its start `opening`. -/
inductive Tagged (source : List Char) (levels : Nat) (opening : Span) : Stmt → List Lexeme → Prop where
  | output {value : Expr} {taken : List Lexeme} (ending : Span) :
    (Expr.parse levels).Reads value taken →
    (∀ first ∈ taken.head?, ∀ keyword ∈ keywords, first.token ≠ .word keyword) →
    Tagged source levels opening (.output value (opening.upTo ending)) (taken ++ [⟨.tagEnd, ending⟩])
  | layout {quoted : Lexeme} {name : String} (keyword ending : Span) :
    stringText quoted.token = some name →
    Tagged source levels opening (.layout name (opening.upTo ending))
      [⟨.word "extends", keyword⟩, quoted, ⟨.tagEnd, ending⟩]
  | capture {quoted : Lexeme} {name : String} {inner : List Lexeme} (keyword tagEnd close closing ending : Span) :
    stringText quoted.token = some name → holdsSectionTag inner = false →
    Tagged source levels opening
      (.capture name
        ⟨String.ofList (Text.slice tagEnd.stop.offset close.start.offset source), tagEnd.stop.line,
          tagEnd.stop.column⟩
        (opening.upTo ending))
      (⟨.word "section", keyword⟩ :: quoted :: ⟨.tagEnd, tagEnd⟩ ::
        (inner ++ sectionClose close closing ending))
  | fill {quoted : Lexeme} {name : String} (keyword ending : Span) :
    stringText quoted.token = some name →
    Tagged source levels opening (.fill name (opening.upTo ending))
      [⟨.word "fill", keyword⟩, quoted, ⟨.tagEnd, ending⟩]
  | each {item part : String} {collection : Expr} {taken : List Lexeme} {quoted : Lexeme}
    (keyword named marks uses ending : Span) :
    (Expr.parse levels).Reads collection taken → stringText quoted.token = some part →
    Tagged source levels opening (.each item collection part (opening.upTo ending))
      (⟨.word "each", keyword⟩ :: ⟨.word item, named⟩ :: ⟨.word "in", marks⟩ ::
        (taken ++ [⟨.word "using", uses⟩, quoted, ⟨.tagEnd, ending⟩]))
  | inclusion {quoted : Lexeme} {name : String} (keyword ending : Span) :
    stringText quoted.token = some name →
    Tagged source levels opening (.inclusion name (opening.upTo ending))
      [⟨.word "include", keyword⟩, quoted, ⟨.tagEnd, ending⟩]
  | embedding {quoted : Lexeme} {name : String} (keyword ending : Span) :
    stringText quoted.token = some name →
    Tagged source levels opening (.embedding name [] (opening.upTo ending))
      [⟨.word "embed", keyword⟩, quoted, ⟨.tagEnd, ending⟩]
  | embeddingWith {quoted : Lexeme} {name : String} {bindings : List (String × Expr)} {bound : List Lexeme}
    (keyword marks bracket ending : Span) :
    stringText quoted.token = some name → Bound levels bindings bound →
    Tagged source levels opening (.embedding name bindings (opening.upTo ending))
      (⟨.word "embed", keyword⟩ :: quoted :: ⟨.word "with", marks⟩ :: ⟨.bracketOpen, bracket⟩ ::
        (bound ++ [⟨.tagEnd, ending⟩]))

/-- The tokens that spell statements, or the branches of a conditional behind the condition of the first, where
`levels` more conditionals and expressions may nest. -/
inductive Spelled (source : List Char) : (levels : Nat) → Phrase → List Lexeme → Prop where
  | done {levels : Nat} : Spelled source levels (.statements []) []
  | text {levels : Nat} {rest : List Stmt} {later : List Lexeme} (raw : String) (span : Span) :
    Spelled source levels (.statements rest) later →
    Spelled source levels (.statements (.text raw span :: rest)) (⟨.text raw, span⟩ :: later)
  | tag {levels : Nat} {stmt : Stmt} {rest : List Stmt} {inner later : List Lexeme} (opening : Span) :
    Tagged source levels opening stmt inner → Spelled source levels (.statements rest) later →
    Spelled source levels (.statements (stmt :: rest)) (⟨.tagStart, opening⟩ :: (inner ++ later))
  | conditional {levels : Nat} {first : Expr} {body : List Stmt} {others : List (Expr × List Stmt)}
    {otherwise : Option (List Stmt)} {rest : List Stmt} {condition inner later : List Lexeme}
    (opening keyword ending : Span) :
    (Expr.parse levels).Reads first condition →
    Spelled source levels (.branches ((first, body) :: others) otherwise) inner →
    Spelled source (levels + 1) (.statements rest) later →
    Spelled source (levels + 1)
      (.statements (.conditional ((first, body) :: others) otherwise (opening.upTo ending) :: rest))
      (⟨.tagStart, opening⟩ :: ⟨.word "if", keyword⟩ :: (condition ++ (inner ++ ⟨.tagEnd, ending⟩ :: later)))
  | lastBranch {levels : Nat} {condition : Expr} {body : List Stmt} {inner : List Lexeme}
    (ending opening keyword : Span) :
    Spelled source levels (.statements body) inner →
    Spelled source levels (.branches [(condition, body)] none)
      (⟨.tagEnd, ending⟩ :: (inner ++ [⟨.tagStart, opening⟩, ⟨.word "endif", keyword⟩]))
  | otherwise {levels : Nat} {condition : Expr} {body other : List Stmt} {inner last : List Lexeme}
    (ending opening keyword ending' opening' keyword' : Span) :
    Spelled source levels (.statements body) inner → Spelled source levels (.statements other) last →
    Spelled source levels (.branches [(condition, body)] (some other))
      (⟨.tagEnd, ending⟩ ::
        (inner ++ ⟨.tagStart, opening⟩ :: ⟨.word "else", keyword⟩ :: ⟨.tagEnd, ending'⟩ ::
        (last ++ [⟨.tagStart, opening'⟩, ⟨.word "endif", keyword'⟩])))
  | anotherBranch {levels : Nat} {condition second : Expr} {body next : List Stmt}
    {others : List (Expr × List Stmt)} {otherwise : Option (List Stmt)} {inner taken later : List Lexeme}
    (ending opening keyword : Span) :
    Spelled source levels (.statements body) inner → (Expr.parse levels).Reads second taken →
    Spelled source levels (.branches ((second, next) :: others) otherwise) later →
    Spelled source levels (.branches ((condition, body) :: (second, next) :: others) otherwise)
      (⟨.tagEnd, ending⟩ ::
        (inner ++ ⟨.tagStart, opening⟩ :: ⟨.word "elseif", keyword⟩ :: (taken ++ later)))

variable {source : List Char} {levels : Nat} {start next : Pending} {expected name : String} {span opening : Span}

theorem run_quotedName_eq_ok :
    (quotedName expected).run start = .ok (name, next) ↔
      ∃ quoted rest, start.tokens = quoted :: rest ∧ stringText quoted.token = some name ∧
        next = start.past [quoted] rest := by
  constructor
  · intro reads
    obtain ⟨⟨other, place⟩, middle, one, more⟩ := run_bind_eq_ok.mp reads
    obtain ⟨rfl, rfl⟩ := run_pure_eq_ok.mp more
    obtain ⟨quoted, rest, front, text, -, rfl⟩ := run_expect_eq_ok.mp one
    exact ⟨quoted, rest, front, text, rfl⟩
  · rintro ⟨quoted, rest, front, text, rfl⟩
    exact run_bind_eq_ok.mpr ⟨_, _, run_expect_eq_ok.mpr ⟨quoted, rest, front, text, rfl, rfl⟩, rfl⟩

theorem run_endOfTag_eq_ok :
    endOfTag.run start = .ok (span, next) ↔
      ∃ rest, start.tokens = ⟨.tagEnd, span⟩ :: rest ∧ next = start.past [⟨.tagEnd, span⟩] rest :=
  run_expectToken_eq_ok

theorem run_skip_same {token : Token} {mark : Span} {rest : List Lexeme} (front : start.tokens = ⟨token, mark⟩ :: rest) :
    (skip token).run start = .ok (true, start.past [⟨token, mark⟩] rest) := by
  rw [run_skip_cons front, if_pos rfl]
  rfl

theorem run_skip_other {token : Token} {first : Lexeme} {rest : List Lexeme} (front : start.tokens = first :: rest)
    (other : first.token ≠ token) : (skip token).run start = .ok (false, start) := by
  rw [run_skip_cons front, if_neg other]

theorem stringText_bracketClose {quoted : Lexeme} (text : stringText quoted.token = some name) :
    quoted.token ≠ .bracketClose := by
  intro closes
  rw [closes] at text
  cases text

theorem run_expectIs_eq_ok {token : Token} {mark : Unit × Span} :
    (expect expected (isToken token)).run start = .ok (mark, next) ↔
      ∃ rest, start.tokens = ⟨token, mark.2⟩ :: rest ∧ next = start.past [⟨token, mark.2⟩] rest := by
  obtain ⟨⟨⟩, span⟩ := mark
  constructor
  · intro reads
    obtain ⟨⟨other, _⟩, rest, front, means, rfl, rfl⟩ := run_expect_eq_ok.mp reads
    unfold isToken at means
    split at means
    · rename_i same
      obtain rfl : other = token := same
      exact ⟨rest, front, rfl⟩
    · cases means
  · rintro ⟨rest, front, rfl⟩
    exact run_expect_eq_ok.mpr ⟨_, rest, front, if_pos rfl, rfl, rfl⟩

/-- A tag of its keyword and a quoted name, behind the keyword. -/
theorem run_nameTag_eq_ok {f : String → Span → Stmt} {stmt : Stmt} :
    (do
      let name ← quotedName expected
      let _ ← endOfTag
      return f name (← spanFrom opening) : Parse Stmt).run start = .ok (stmt, next) ↔
      ∃ quoted name ending rest, start.tokens = quoted :: ⟨.tagEnd, ending⟩ :: rest ∧
        stringText quoted.token = some name ∧ stmt = f name (opening.upTo ending) ∧
        next = start.past [quoted, ⟨.tagEnd, ending⟩] rest := by
  constructor
  · intro reads
    obtain ⟨name, _, one, more⟩ := run_bind_eq_ok.mp reads
    obtain ⟨quoted, rest, front, text, rfl⟩ := run_quotedName_eq_ok.mp one
    obtain ⟨ending, _, two, more⟩ := run_bind_eq_ok.mp more
    obtain ⟨rest, ends, rfl⟩ := run_endOfTag_eq_ok.mp two
    obtain ⟨rfl, rfl⟩ := run_pure_eq_ok.mp more
    exact ⟨quoted, name, ending, rest, front.trans (congrArg (quoted :: ·) ends), text, rfl, rfl⟩
  · rintro ⟨quoted, name, ending, rest, front, text, rfl, rfl⟩
    refine run_bind_eq_ok.mpr ⟨_, _, run_quotedName_eq_ok.mpr ⟨quoted, _, front, text, rfl⟩, ?_⟩
    exact run_bind_eq_ok.mpr ⟨_, _, run_endOfTag_eq_ok.mpr ⟨rest, rfl, rfl⟩, rfl⟩

theorem run_layoutTag_eq_ok :
    layoutTag.run start = .ok (name, next) ↔
      start.hasLayout = false ∧ ∃ quoted ending rest, start.tokens = quoted :: ⟨.tagEnd, ending⟩ :: rest ∧
        stringText quoted.token = some name ∧
        next = start.beyond [.layout name] [quoted, ⟨.tagEnd, ending⟩] rest := by
  rw [layoutTag, run_bind, run_pending]
  show (if start.hasLayout then _ else _ : Parse String).run start = _ ↔ _
  cases declared : start.hasLayout with
  | true => exact iff_of_false nofun nofun
  | false =>
    rw [if_neg Bool.false_ne_true]
    constructor
    · intro reads
      obtain ⟨_, _, one, more⟩ := run_bind_eq_ok.mp reads
      obtain ⟨rfl, rfl⟩ := Prod.mk.inj (Except.ok.inj one)
      obtain ⟨layout, _, two, more⟩ := run_bind_eq_ok.mp more
      obtain ⟨quoted, rest, front, text, rfl⟩ := run_quotedName_eq_ok.mp two
      obtain ⟨ending, _, three, more⟩ := run_bind_eq_ok.mp more
      obtain ⟨rest, ends, rfl⟩ := run_endOfTag_eq_ok.mp three
      obtain ⟨rfl, rfl⟩ := run_pure_eq_ok.mp more
      exact ⟨rfl, quoted, ending, rest, front.trans (congrArg (quoted :: ·) ends), text, rfl⟩
    · rintro ⟨-, quoted, ending, rest, front, text, rfl⟩
      refine run_bind_eq_ok.mpr ⟨_, _, run_noteLayout, ?_⟩
      refine run_bind_eq_ok.mpr ⟨_, _, run_quotedName_eq_ok.mpr ⟨quoted, _, front, text, rfl⟩, ?_⟩
      exact run_bind_eq_ok.mpr ⟨_, _, run_endOfTag_eq_ok.mpr ⟨rest, rfl, rfl⟩, rfl⟩

/-- Passing over a token in front of a section's end. -/
theorem run_sectionEnd_cons {first : Lexeme} {rest : List Lexeme} (front : start.tokens = first :: rest)
    (plain : first.token ≠ .tagStart ∨
      ∃ ahead ∈ rest.head?, ahead.token ≠ .word "section" ∧ ahead.token ≠ .word "endsection") :
    sectionEnd.run start = sectionEnd.run (start.behind first rest) := by
  rw [run_sectionEnd, front]
  dsimp only
  split
  · rename_i opens
    obtain ⟨ahead, found, section_, endsection⟩ := plain.resolve_left (not_not_intro opens)
    have peeks : peek.run (start.behind first rest) = .ok (some ahead.token, start.behind first rest) := by
      obtain ⟨rest, rfl⟩ := List.head?_eq_some_iff.mp found
      rw [run_peek]
      rfl
    rw [peeks]
    show (if _ then _ else _) = _
    rw [if_neg (fun same => endsection (Option.some.inj same)), if_neg (fun same => section_ (Option.some.inj same))]
  · rfl

theorem holdsSectionTag_cons_eq_false {first ahead : Lexeme} {rest : List Lexeme} :
    holdsSectionTag (first :: ahead :: rest) = false ↔
      (first.token ≠ .tagStart ∨ ahead.token ≠ .word "section" ∧ ahead.token ≠ .word "endsection") ∧
        holdsSectionTag (ahead :: rest) = false := by
  rw [holdsSectionTag]
  by_cases opens : first.token = .tagStart
  · simp [opens]
  · simp [opens]

theorem sectionEnd_sound {close : Span} (reads : sectionEnd.run start = .ok (close, next)) :
    ∃ inner closing ending rest, holdsSectionTag inner = false ∧
      start.tokens = inner ++ sectionClose close closing ending ++ rest ∧
      next = start.past (inner ++ sectionClose close closing ending) rest := by
  induction tokens : start.tokens generalizing start with
  | nil =>
    rw [run_sectionEnd, tokens] at reads
    cases reads
  | cons first rest ih =>
    have later (plain : ∀ ahead ∈ rest.head?, first.token ≠ .tagStart ∨
          ahead.token ≠ .word "section" ∧ ahead.token ≠ .word "endsection")
        (reads : sectionEnd.run (start.behind first rest) = .ok (close, next)) :
        ∃ inner closing ending behind, holdsSectionTag inner = false ∧
          first :: rest = inner ++ sectionClose close closing ending ++ behind ∧
          next = start.past (inner ++ sectionClose close closing ending) behind := by
      obtain ⟨inner, closing, ending, behind, free, split, rfl⟩ := ih reads rfl
      refine ⟨first :: inner, closing, ending, behind, ?_, congrArg (first :: ·) split, ?_⟩
      · cases inner with
        | nil => rfl
        | cons ahead inner =>
          exact holdsSectionTag_cons_eq_false.mpr ⟨plain ahead (by rw [split]; rfl), free⟩
      · rw [Pending.behind_eq_past, Pending.past_past]
        rfl
    rw [run_sectionEnd, tokens] at reads
    dsimp only at reads
    split at reads
    · rename_i opens
      obtain ⟨⟨token, _⟩, peeks, more⟩ := bind_eq_ok.mp reads
      obtain ⟨-, rfl⟩ := run_peek_eq_ok peeks
      dsimp only at more
      split at more
      · rename_i ends
        obtain ⟨⟨keyword, _⟩, one, more⟩ := bind_eq_ok.mp more
        obtain ⟨behind, front, rfl⟩ := run_take_eq_ok.mp one
        obtain ⟨⟨ending, _⟩, two, more⟩ := bind_eq_ok.mp more
        obtain ⟨rfl, rfl⟩ := run_pure_eq_ok.mp more
        obtain ⟨last, ended, rfl⟩ := run_endOfTag_eq_ok.mp two
        obtain rfl : rest = keyword :: behind := front
        obtain rfl : behind = ⟨.tagEnd, ending⟩ :: last := ended
        obtain ⟨token, closing⟩ := keyword
        obtain ⟨opening, place⟩ := first
        obtain rfl : opening = .tagStart := opens
        obtain rfl : token = .word "endsection" := Option.some.inj ends
        exact ⟨[], closing, ending, last, rfl, rfl, rfl⟩
      · rename_i going
        split at more
        · cases more
        · rename_i unnested
          refine later (fun ahead found => .inr ⟨?_, ?_⟩) more
          · rintro same
            exact unnested (by simp [Pending.behind, Option.mem_def.mp found, same])
          · rintro same
            exact going (by simp [Pending.behind, Option.mem_def.mp found, same])
    · rename_i other
      exact later (fun _ _ => .inl other) reads

theorem run_sectionEnd_of_free {inner rest : List Lexeme} {close closing ending : Span}
    (free : holdsSectionTag inner = false) (front : start.tokens = inner ++ sectionClose close closing ending ++ rest) :
    sectionEnd.run start = .ok (close, start.past (inner ++ sectionClose close closing ending) rest) := by
  induction inner generalizing start with
  | nil =>
    rw [run_sectionEnd, front]
    rfl
  | cons first inner ih =>
    have later : holdsSectionTag inner = false := by
      cases inner with
      | nil => rfl
      | cons ahead inner => exact (holdsSectionTag_cons_eq_false.mp free).2
    have plain : first.token ≠ .tagStart ∨
        ∃ ahead ∈ (inner ++ sectionClose close closing ending ++ rest).head?,
          ahead.token ≠ .word "section" ∧ ahead.token ≠ .word "endsection" := by
      cases inner with
      | nil => exact .inr ⟨⟨.tagStart, close⟩, rfl, by simp⟩
      | cons ahead inner =>
        exact (holdsSectionTag_cons_eq_false.mp free).1.imp_right fun other => ⟨ahead, rfl, other⟩
    rw [run_sectionEnd_cons front plain, ih later rfl, Pending.behind_eq_past, Pending.past_past]
    rfl

/-- A section ends with the first tag that ends one, if no section starts before. -/
theorem run_sectionEnd_eq_ok {close : Span} :
    sectionEnd.run start = .ok (close, next) ↔
      ∃ inner closing ending rest, holdsSectionTag inner = false ∧
        start.tokens = inner ++ sectionClose close closing ending ++ rest ∧
        next = start.past (inner ++ sectionClose close closing ending) rest := by
  refine ⟨sectionEnd_sound, ?_⟩
  rintro ⟨inner, closing, ending, rest, free, front, rfl⟩
  exact run_sectionEnd_of_free free front

theorem run_sectionTag_eq_ok {body : SectionBody} :
    (sectionTag source).run start = .ok ((name, body), next) ↔
      ∃ quoted tagEnd inner close closing ending rest,
        stringText quoted.token = some name ∧ holdsSectionTag inner = false ∧
        body = ⟨String.ofList (Text.slice tagEnd.stop.offset close.start.offset source), tagEnd.stop.line,
          tagEnd.stop.column⟩ ∧
        name ∉ start.sections ∧
        start.tokens = quoted :: ⟨.tagEnd, tagEnd⟩ :: (inner ++ sectionClose close closing ending ++ rest) ∧
        next = start.beyond [.capture name body]
          (quoted :: ⟨.tagEnd, tagEnd⟩ :: (inner ++ sectionClose close closing ending)) rest := by
  have passed (tagEnd : Span) (quoted : Lexeme) (body : SectionBody) (taken within rest : List Lexeme) :
      ({ start.past [quoted, ⟨.tagEnd, tagEnd⟩] within with sections := name :: start.sections } : Pending).past
        taken rest = start.beyond [.capture name body] (quoted :: ⟨.tagEnd, tagEnd⟩ :: taken) rest :=
    Pending.past_past (start.note (.capture name body)) [quoted, ⟨.tagEnd, tagEnd⟩] taken within rest
  constructor
  · intro reads
    obtain ⟨_, _, one, more⟩ := run_bind_eq_ok.mp reads
    obtain ⟨quoted, behind, front, text, rfl⟩ := run_quotedName_eq_ok.mp one
    obtain ⟨tagEnd, _, two, more⟩ := run_bind_eq_ok.mp more
    obtain ⟨within, ends, rfl⟩ := run_endOfTag_eq_ok.mp two
    obtain ⟨_, _, three, more⟩ := run_bind_eq_ok.mp more
    rw [run_pending] at three
    obtain ⟨rfl, rfl⟩ := Prod.mk.inj (Except.ok.inj three)
    split at more
    · cases more
    rename_i fresh
    obtain ⟨_, _, four, more⟩ := run_bind_eq_ok.mp more
    rw [run_noteSection] at four
    obtain ⟨rfl, rfl⟩ := Prod.mk.inj (Except.ok.inj four)
    obtain ⟨close, _, five, more⟩ := run_bind_eq_ok.mp more
    obtain ⟨same, rfl⟩ := run_pure_eq_ok.mp more
    obtain ⟨rfl, rfl⟩ := Prod.mk.inj same
    obtain ⟨inner, closing, ending, rest, free, split, rfl⟩ := run_sectionEnd_eq_ok.mp five
    refine ⟨quoted, tagEnd, inner, close, closing, ending, rest, text, free, rfl, ?_, ?_, passed _ _ _ _ _ _⟩
    · exact fun found => fresh (List.contains_iff_mem.mpr found)
    · have ends : behind = ⟨.tagEnd, tagEnd⟩ :: within := ends
      have split : within = _ := split
      rw [front, ends, split]
  · rintro ⟨quoted, tagEnd, inner, close, closing, ending, rest, text, free, rfl, fresh, front, rfl⟩
    have unseen : ¬start.sections.contains name = true := fun found => fresh (List.contains_iff_mem.mp found)
    refine run_bind_eq_ok.mpr ⟨_, _, run_quotedName_eq_ok.mpr ⟨quoted, _, front, text, rfl⟩, ?_⟩
    refine run_bind_eq_ok.mpr ⟨_, _, run_endOfTag_eq_ok.mpr ⟨_, rfl, rfl⟩, ?_⟩
    refine run_bind_eq_ok.mpr ⟨_, _, run_pending, ?_⟩
    show (if start.sections.contains name then _ else _ : Parse _).run _ = _
    rw [if_neg unseen]
    refine run_bind_eq_ok.mpr ⟨_, _, run_noteSection name, ?_⟩
    refine run_bind_eq_ok.mpr ⟨_, _, run_sectionEnd_eq_ok.mpr ⟨inner, closing, ending, rest, free, rfl, rfl⟩, ?_⟩
    exact run_pure_eq_ok.mpr ⟨rfl, passed _ _ _ _ _ _⟩

theorem run_eachTag_eq_ok {item part : String} {collection : Expr} :
    (eachTag levels).run start = .ok ((item, collection, part), next) ↔
      ∃ named marks taken uses quoted ending rest, (Expr.parse levels).Reads collection taken ∧
        stringText quoted.token = some part ∧
        start.tokens = ⟨.word item, named⟩ :: ⟨.word "in", marks⟩ ::
          (taken ++ [⟨.word "using", uses⟩, quoted, ⟨.tagEnd, ending⟩] ++ rest) ∧
        next = start.past (⟨.word item, named⟩ :: ⟨.word "in", marks⟩ ::
          (taken ++ [⟨.word "using", uses⟩, quoted, ⟨.tagEnd, ending⟩])) rest := by
  constructor
  · intro reads
    obtain ⟨⟨name, place⟩, _, one, more⟩ := run_bind_eq_ok.mp reads
    obtain ⟨⟨word, named⟩, behind, front, means, -, rfl⟩ := run_expect_eq_ok.mp one
    obtain rfl := Expr.wordName_eq_some means
    obtain ⟨marks, _, two, more⟩ := run_bind_eq_ok.mp more
    obtain ⟨inner, marked, rfl⟩ := run_expectToken_eq_ok.mp two
    obtain ⟨_, middle, three, more⟩ := run_bind_eq_ok.mp more
    obtain ⟨taken, value, passes⟩ := (Expr.parse_local levels).reads three
    obtain ⟨uses, _, four, more⟩ := run_bind_eq_ok.mp more
    obtain ⟨later, used, rfl⟩ := run_expectToken_eq_ok.mp four
    obtain ⟨_, _, five, more⟩ := run_bind_eq_ok.mp more
    obtain ⟨quoted, last, quotes, text, rfl⟩ := run_quotedName_eq_ok.mp five
    obtain ⟨ending, _, six, more⟩ := run_bind_eq_ok.mp more
    obtain ⟨rest, ends, rfl⟩ := run_endOfTag_eq_ok.mp six
    obtain ⟨same, rfl⟩ := run_pure_eq_ok.mp more
    simp only [Prod.mk.injEq] at same
    obtain ⟨rfl, rfl, rfl⟩ := same
    have marked : behind = ⟨.word "in", marks⟩ :: inner := marked
    have split : inner = taken ++ middle.tokens := passes.split
    have quotes : later = quoted :: last := quotes
    have ends : last = ⟨.tagEnd, ending⟩ :: rest := ends
    refine ⟨named, marks, taken, uses, quoted, ending, rest, value, text, ?_, ?_⟩
    · rw [front, marked, split, used, quotes, ends]
      simp
    · rw [passes.past]
      simp [Pending.behind_eq_past, Pending.past_past]
  · rintro ⟨named, marks, taken, uses, quoted, ending, rest, value, text, front, rfl⟩
    refine run_bind_eq_ok.mpr ⟨_, _, run_expect_eq_ok.mpr ⟨_, _, front, rfl, rfl, rfl⟩, ?_⟩
    refine run_bind_eq_ok.mpr ⟨_, _, run_expectToken_eq_ok.mpr ⟨_, rfl, rfl⟩, ?_⟩
    have front : taken ++ [⟨.word "using", uses⟩, quoted, ⟨.tagEnd, ending⟩] ++ rest =
        taken ++ ⟨.word "using", uses⟩ :: quoted :: ⟨.tagEnd, ending⟩ :: rest := by simp
    refine run_bind_eq_ok.mpr ⟨_, _, value.run (Expr.parse_local levels) front Token.closes_using, ?_⟩
    refine run_bind_eq_ok.mpr ⟨_, _, run_expectToken_eq_ok.mpr ⟨_, rfl, rfl⟩, ?_⟩
    refine run_bind_eq_ok.mpr ⟨_, _, run_quotedName_eq_ok.mpr ⟨quoted, _, rfl, text, rfl⟩, ?_⟩
    refine run_bind_eq_ok.mpr ⟨_, _, run_endOfTag_eq_ok.mpr ⟨rest, rfl, rfl⟩, ?_⟩
    refine run_pure_eq_ok.mpr ⟨rfl, ?_⟩
    simp [Pending.behind_eq_past, Pending.past_past]

theorem run_binding_eq_ok {key : String} {path : Expr} :
    (binding levels).run start = .ok ((key, path), next) ↔
      ∃ quoted arrow middle, start.tokens = quoted :: ⟨.arrow, arrow⟩ :: middle ∧
        stringText quoted.token = some key ∧
        (Expr.path levels).run (start.past [quoted, ⟨.arrow, arrow⟩] middle) = .ok (path, next) := by
  constructor
  · intro reads
    obtain ⟨_, _, one, more⟩ := run_bind_eq_ok.mp reads
    obtain ⟨quoted, behind, front, text, rfl⟩ := run_quotedName_eq_ok.mp one
    obtain ⟨arrow, _, two, more⟩ := run_bind_eq_ok.mp more
    obtain ⟨middle, points, rfl⟩ := run_expectToken_eq_ok.mp two
    obtain ⟨_, _, three, more⟩ := run_bind_eq_ok.mp more
    obtain ⟨same, rfl⟩ := run_pure_eq_ok.mp more
    obtain ⟨rfl, rfl⟩ := Prod.mk.inj same
    exact ⟨quoted, arrow, middle, front.trans (congrArg (quoted :: ·) points), text, three⟩
  · rintro ⟨quoted, arrow, middle, front, text, reads⟩
    refine run_bind_eq_ok.mpr ⟨_, _, run_quotedName_eq_ok.mpr ⟨quoted, _, front, text, rfl⟩, ?_⟩
    refine run_bind_eq_ok.mpr ⟨_, _, run_expectToken_eq_ok.mpr ⟨middle, rfl, rfl⟩, ?_⟩
    exact run_bind_eq_ok.mpr ⟨_, _, reads, rfl⟩

theorem MoreBound.closes {rest : List (String × Expr)} {more : List Lexeme} (bound : MoreBound levels rest more) :
    ∃ first behind, more = first :: behind ∧ first.token.Closes := by
  cases bound with
  | done => exact ⟨_, _, rfl, Token.closes_bracketClose⟩
  | comma => exact ⟨_, _, rfl, Token.closes_comma⟩
  | bound => exact ⟨_, _, rfl, Token.closes_comma⟩

theorem moreBindings_sound {bound : List (String × Expr)} (reads : (moreBindings levels).run start = .ok (bound, next)) :
    ∃ taken rest, MoreBound levels bound taken ∧ start.tokens = taken ++ rest ∧ next = start.past taken rest := by
  induction size : start.tokens.length using Nat.strongRecOn generalizing start bound with
  | ind n ih =>
  rw [run_moreBindings] at reads
  obtain ⟨⟨closed, _⟩, one, more⟩ := bind_eq_ok.mp reads
  rcases run_skip_eq_ok one with ⟨rfl, ending, behind, front, rfl⟩ | ⟨rfl, rfl, -⟩
  · obtain ⟨rfl, rfl⟩ := run_pure_eq_ok.mp more
    exact ⟨_, behind, .done ending, front, rfl⟩
  obtain ⟨⟨mark, _⟩, two, more⟩ := bind_eq_ok.mp more
  obtain ⟨behind, front, rfl⟩ := run_expectIs_eq_ok.mp two
  obtain ⟨⟨closed, _⟩, three, more⟩ := bind_eq_ok.mp more
  rcases run_skip_eq_ok three with ⟨rfl, ending, last, ends, rfl⟩ | ⟨rfl, rfl, -⟩
  · obtain ⟨rfl, rfl⟩ := run_pure_eq_ok.mp more
    exact ⟨_, last, .comma _ ending, front.trans (congrArg (_ :: ·) ends), rfl⟩
  obtain ⟨⟨⟨key, path⟩, middle⟩, four, more⟩ := bind_eq_ok.mp more
  obtain ⟨⟨others, _⟩, five, more⟩ := bind_eq_ok.mp more
  obtain ⟨rfl, rfl⟩ := run_pure_eq_ok.mp more
  obtain ⟨name, arrow, inner, points, text, pathReads⟩ := run_binding_eq_ok.mp four
  obtain ⟨value, takes, passes⟩ := (Expr.path_local levels).reads pathReads
  have points : behind = name :: ⟨.arrow, arrow⟩ :: inner := points
  have split : inner = value ++ middle.tokens := passes.split
  have shorter : middle.tokens.length < n := by
    rw [← size, front, points, split]
    simp only [List.length_cons, List.length_append]
    omega
  obtain ⟨taken, rest, bound, later, rfl⟩ := ih _ shorter five rfl
  refine ⟨_, rest, .bound mark.2 arrow text takes bound, ?_, ?_⟩
  · rw [front, points, split, later]
    simp
  · rw [passes.past]
    simp [Pending.past_past]

theorem MoreBound.run {bound : List (String × Expr)} {taken rest : List Lexeme} (written : MoreBound levels bound taken)
    (front : start.tokens = taken ++ rest) : (moreBindings levels).run start = .ok (bound, start.past taken rest) := by
  induction written generalizing start with
  | done ending =>
    rw [run_moreBindings, run_skip_same front]
    rfl
  | comma mark ending =>
    rw [run_moreBindings]
    refine bind_eq_ok.mpr ⟨_, run_skip_other front nofun, ?_⟩
    refine bind_eq_ok.mpr ⟨((((), mark) : Unit × Span), _), run_expectIs_eq_ok.mpr ⟨_, front, rfl⟩, ?_⟩
    exact bind_eq_ok.mpr ⟨_, run_skip_same rfl, rfl⟩
  | @bound path others name key value more mark arrow text reads written ih =>
    obtain ⟨first, behind, rfl, closes⟩ := written.closes
    have front : start.tokens = ⟨.comma, mark⟩ :: name :: ⟨.arrow, arrow⟩ :: (value ++ first :: (behind ++ rest)) := by
      simpa using front
    let here := start.past [⟨.comma, mark⟩] (name :: ⟨.arrow, arrow⟩ :: (value ++ first :: (behind ++ rest)))
    have takes : (Expr.path levels).run (here.past [name, ⟨.arrow, arrow⟩] (value ++ first :: (behind ++ rest))) =
        .ok (path, _) := reads.run (Expr.path_local levels) rfl closes
    have bindings := run_binding_eq_ok.mpr ⟨name, arrow, _, rfl, text, takes⟩
    rw [run_moreBindings]
    refine bind_eq_ok.mpr ⟨_, run_skip_other front nofun, ?_⟩
    refine bind_eq_ok.mpr ⟨((((), mark) : Unit × Span), here), run_expectIs_eq_ok.mpr ⟨_, front, rfl⟩, ?_⟩
    refine bind_eq_ok.mpr ⟨_, run_skip_other rfl (stringText_bracketClose text), ?_⟩
    refine bind_eq_ok.mpr ⟨_, bindings, ?_⟩
    refine bind_eq_ok.mpr ⟨_, ih rfl, ?_⟩
    simp [here, Pending.past_past]

theorem run_moreBindings_eq_ok {bound : List (String × Expr)} :
    (moreBindings levels).run start = .ok (bound, next) ↔
      ∃ taken rest, MoreBound levels bound taken ∧ start.tokens = taken ++ rest ∧ next = start.past taken rest := by
  refine ⟨moreBindings_sound, ?_⟩
  rintro ⟨taken, rest, written, front, rfl⟩
  exact written.run front

theorem run_bindings_eq_ok {bound : List (String × Expr)} :
    (bindings levels).run start = .ok (bound, next) ↔
      ∃ taken rest, Bound levels bound taken ∧ start.tokens = taken ++ rest ∧ next = start.past taken rest := by
  constructor
  · intro reads
    obtain ⟨closed, _, one, more⟩ := run_bind_eq_ok.mp reads
    rcases run_skip_eq_ok one with ⟨rfl, ending, rest, front, rfl⟩ | ⟨rfl, rfl, -⟩
    · obtain ⟨rfl, rfl⟩ := run_pure_eq_ok.mp more
      exact ⟨_, rest, .none ending, front, rfl⟩
    obtain ⟨⟨key, path⟩, middle, two, more⟩ := run_bind_eq_ok.mp more
    obtain ⟨others, _, three, more⟩ := run_bind_eq_ok.mp more
    obtain ⟨rfl, rfl⟩ := run_pure_eq_ok.mp more
    obtain ⟨name, arrow, inner, front, text, pathReads⟩ := run_binding_eq_ok.mp two
    obtain ⟨value, takes, passes⟩ := (Expr.path_local levels).reads pathReads
    obtain ⟨taken, rest, bound, later, rfl⟩ := run_moreBindings_eq_ok.mp three
    have split : inner = value ++ middle.tokens := passes.split
    refine ⟨_, rest, .some arrow text takes bound, ?_, ?_⟩
    · rw [front, split, later]
      simp
    · rw [passes.past]
      simp [Pending.past_past]
  · rintro ⟨taken, rest, bound, front, rfl⟩
    cases bound with
    | none ending => exact run_bind_eq_ok.mpr ⟨_, _, run_skip_same front, rfl⟩
    | @some path others name key value more arrow text reads bound =>
      obtain ⟨first, behind, rfl, closes⟩ := bound.closes
      have front : start.tokens = name :: ⟨.arrow, arrow⟩ :: (value ++ first :: (behind ++ rest)) := by
        simpa using front
      have takes : (Expr.path levels).run (start.past [name, ⟨.arrow, arrow⟩] (value ++ first :: (behind ++ rest))) =
          .ok (path, _) := reads.run (Expr.path_local levels) rfl closes
      refine run_bind_eq_ok.mpr ⟨_, _, run_skip_other front (stringText_bracketClose text), ?_⟩
      refine run_bind_eq_ok.mpr ⟨_, _, run_binding_eq_ok.mpr ⟨name, arrow, _, front, text, takes⟩, ?_⟩
      refine run_bind_eq_ok.mpr ⟨_, _, run_moreBindings_eq_ok.mpr ⟨_, rest, bound, rfl, rfl⟩, ?_⟩
      refine run_pure_eq_ok.mpr ⟨rfl, ?_⟩
      simp [Pending.past_past]

theorem run_embedTag_eq_ok {bound : List (String × Expr)} :
    (embedTag levels).run start = .ok ((name, bound), next) ↔
      ∃ quoted, stringText quoted.token = some name ∧
        ((∃ ending rest, bound = [] ∧ start.tokens = [quoted, ⟨.tagEnd, ending⟩] ++ rest ∧
            next = start.past [quoted, ⟨.tagEnd, ending⟩] rest) ∨
          ∃ marks bracket taken ending rest, Bound levels bound taken ∧
            start.tokens = quoted :: ⟨.word "with", marks⟩ :: ⟨.bracketOpen, bracket⟩ ::
              (taken ++ [⟨.tagEnd, ending⟩] ++ rest) ∧
            next = start.past (quoted :: ⟨.word "with", marks⟩ :: ⟨.bracketOpen, bracket⟩ ::
              (taken ++ [⟨.tagEnd, ending⟩])) rest) := by
  constructor
  · intro reads
    obtain ⟨_, _, one, more⟩ := run_bind_eq_ok.mp reads
    obtain ⟨quoted, behind, front, text, rfl⟩ := run_quotedName_eq_ok.mp one
    obtain ⟨skipped, _, two, more⟩ := run_bind_eq_ok.mp more
    rcases run_skip_eq_ok two with ⟨rfl, marks, inner, marked, rfl⟩ | ⟨rfl, rfl, -⟩
    · obtain ⟨bracket, _, three, more⟩ := run_bind_eq_ok.mp more
      obtain ⟨within, opened, rfl⟩ := run_expectToken_eq_ok.mp three
      obtain ⟨_, _, four, more⟩ := run_bind_eq_ok.mp more
      obtain ⟨taken, later, written, split, rfl⟩ := run_bindings_eq_ok.mp four
      obtain ⟨ending, _, five, more⟩ := run_bind_eq_ok.mp more
      obtain ⟨rest, ends, rfl⟩ := run_endOfTag_eq_ok.mp five
      obtain ⟨same, rfl⟩ := run_pure_eq_ok.mp more
      obtain ⟨rfl, rfl⟩ := Prod.mk.inj same
      have marked : behind = ⟨.word "with", marks⟩ :: inner := marked
      have opened : inner = ⟨.bracketOpen, bracket⟩ :: within := opened
      have split : within = taken ++ later := split
      have ends : later = ⟨.tagEnd, ending⟩ :: rest := ends
      refine ⟨quoted, text, .inr ⟨marks, bracket, taken, ending, rest, written, ?_, ?_⟩⟩
      · rw [front, marked, opened, split, ends]
        simp
      · simp [Pending.behind_eq_past, Pending.past_past]
    · obtain ⟨ending, _, three, more⟩ := run_bind_eq_ok.mp more
      obtain ⟨rest, ends, rfl⟩ := run_endOfTag_eq_ok.mp three
      obtain ⟨same, rfl⟩ := run_pure_eq_ok.mp more
      obtain ⟨rfl, rfl⟩ := Prod.mk.inj same
      exact ⟨quoted, text, .inl ⟨ending, rest, rfl, front.trans (congrArg (quoted :: ·) ends), rfl⟩⟩
  · rintro ⟨quoted, text, ⟨ending, rest, rfl, front, rfl⟩ | ⟨marks, bracket, taken, ending, rest, written, front, rfl⟩⟩
    · refine run_bind_eq_ok.mpr ⟨_, _, run_quotedName_eq_ok.mpr ⟨quoted, _, front, text, rfl⟩, ?_⟩
      refine run_bind_eq_ok.mpr ⟨_, _, run_skip_other rfl nofun, ?_⟩
      exact run_bind_eq_ok.mpr ⟨_, _, run_endOfTag_eq_ok.mpr ⟨rest, rfl, rfl⟩, rfl⟩
    · refine run_bind_eq_ok.mpr ⟨_, _, run_quotedName_eq_ok.mpr ⟨quoted, _, front, text, rfl⟩, ?_⟩
      refine run_bind_eq_ok.mpr ⟨_, _, run_skip_same rfl, ?_⟩
      refine run_bind_eq_ok.mpr ⟨_, _, run_expectToken_eq_ok.mpr ⟨_, rfl, rfl⟩, ?_⟩
      refine run_bind_eq_ok.mpr ⟨_, _, run_bindings_eq_ok.mpr ⟨taken, _, written, List.append_assoc .., rfl⟩, ?_⟩
      refine run_bind_eq_ok.mpr ⟨_, _, run_endOfTag_eq_ok.mpr ⟨rest, rfl, rfl⟩, ?_⟩
      refine run_pure_eq_ok.mpr ⟨rfl, ?_⟩
      simp [Pending.behind_eq_past, Pending.past_past]

theorem run_output_eq_ok {stmt : Stmt} :
    (tag.output levels opening).run start = .ok (stmt, next) ↔
      ∃ value taken ending rest, (Expr.parse levels).Reads value taken ∧
        start.tokens = taken ++ [⟨.tagEnd, ending⟩] ++ rest ∧ stmt = .output value (opening.upTo ending) ∧
        next = start.past (taken ++ [⟨.tagEnd, ending⟩]) rest := by
  constructor
  · intro reads
    obtain ⟨value, middle, one, more⟩ := run_bind_eq_ok.mp reads
    obtain ⟨taken, takes, passes⟩ := (Expr.parse_local levels).reads one
    obtain ⟨ending, _, two, more⟩ := run_bind_eq_ok.mp more
    obtain ⟨rest, ends, rfl⟩ := run_endOfTag_eq_ok.mp two
    obtain ⟨rfl, rfl⟩ := run_pure_eq_ok.mp more
    refine ⟨value, taken, ending, rest, takes, ?_, rfl, ?_⟩
    · rw [passes.split, ends]
      simp
    · rw [passes.past, Pending.past_past]
  · rintro ⟨value, taken, ending, rest, reads, front, rfl, rfl⟩
    have front : start.tokens = taken ++ ⟨.tagEnd, ending⟩ :: rest := by simpa using front
    refine run_bind_eq_ok.mpr ⟨_, _, reads.run (Expr.parse_local levels) front Token.closes_tagEnd, ?_⟩
    refine run_bind_eq_ok.mpr ⟨_, _, run_endOfTag_eq_ok.mpr ⟨rest, rfl, rfl⟩, ?_⟩
    rw [Pending.past_past]
    refine run_pure_eq_ok.mpr ⟨?_, rfl⟩
    rw [Pending.past_last (by simp)]
    simp

variable {stmt : Stmt} {taken rest : List Lexeme} {conditional : Parse Branches} {word : String} {keyword : Span}

theorem run_peek_cons {first : Lexeme} (front : start.tokens = first :: rest) :
    peek.run start = .ok (some first.token, start) := by
  rw [run_peek, ahead, front]
  rfl

/-- A tag that starts with a keyword goes on behind it. -/
theorem run_tag_keyword {reader other : Parse Stmt} (front : start.tokens = ⟨.word word, keyword⟩ :: rest)
    (listed : keywords.contains word = true)
    (reads : reader.run (start.past [⟨.word word, keyword⟩] rest) = .ok (stmt, next)) :
    (if keywords.contains word then (do let _ ← take ""; reader) else other : Parse Stmt).run start =
      .ok (stmt, next) := by
  rw [if_pos listed]
  exact run_bind_eq_ok.mpr ⟨_, _, run_take_cons front, reads⟩

/-- A tag is read from its tokens if what it declares may be declared. -/
theorem Tagged.run (tagged : Tagged source levels opening stmt taken)
    (declares : start.Declares stmt.declarations taken next) :
    (tag source levels conditional opening).run start = .ok (stmt, next) := by
  obtain ⟨front, admits, beyond⟩ := declares
  rw [beyond]
  generalize next.tokens = rest at front
  cases tagged with
  | @output value taken ending reads free =>
    obtain ⟨some, -⟩ := reads.inner (Expr.parse_local levels)
    obtain ⟨first, taken, rfl⟩ := List.exists_cons_of_ne_nil some
    have output : (tag.output levels opening).run start = .ok (.output value (opening.upTo ending), _) :=
      run_output_eq_ok.mpr ⟨value, _, ending, rest, reads, front, rfl, rfl⟩
    refine run_bind_eq_ok.mpr ⟨_, _, run_peek_cons front, ?_⟩
    dsimp only
    split
    · cases ‹_›
    · rename_i word same
      have unlisted : ¬keywords.contains word = true := fun listed =>
        free first rfl word (List.contains_iff_mem.mp listed) (Option.some.inj same)
      rw [if_neg unlisted]
      exact output
    · exact output
  | layout keyword ending text =>
    refine run_bind_eq_ok.mpr ⟨_, _, run_peek_cons front, run_tag_keyword front (by decide) ?_⟩
    refine run_bind_eq_ok.mpr ⟨_, _, run_layoutTag_eq_ok.mpr ⟨admits.1, _, ending, rest, rfl, text, rfl⟩, ?_⟩
    exact run_pure_eq_ok.mpr ⟨rfl, Pending.past_beyond⟩
  | capture keyword tagEnd close closing ending text free =>
    refine run_bind_eq_ok.mpr ⟨_, _, run_peek_cons front, run_tag_keyword front (by decide) ?_⟩
    refine run_bind_eq_ok.mpr ⟨_, _, run_sectionTag_eq_ok.mpr
      ⟨_, tagEnd, _, close, closing, ending, rest, text, free, rfl, admits.1, rfl, rfl⟩, ?_⟩
    refine run_pure_eq_ok.mpr ⟨?_, Pending.past_beyond⟩
    simp [Pending.past, Pending.beyond, sectionClose, List.getLast?_cons]
  | fill keyword ending text =>
    refine run_bind_eq_ok.mpr ⟨_, _, run_peek_cons front, run_tag_keyword front (by decide) ?_⟩
    exact run_nameTag_eq_ok.mpr ⟨_, _, ending, rest, rfl, text, rfl, (Pending.past_past start [_] _ _ rest).symm⟩
  | each keyword named marks uses ending reads text =>
    refine run_bind_eq_ok.mpr ⟨_, _, run_peek_cons front, run_tag_keyword front (by decide) ?_⟩
    refine run_bind_eq_ok.mpr ⟨_, _, run_eachTag_eq_ok.mpr
      ⟨named, marks, _, uses, _, ending, rest, reads, text, rfl, rfl⟩, ?_⟩
    refine run_pure_eq_ok.mpr ⟨?_, Pending.past_past ..⟩
    simp [Pending.past, List.getLast?_cons]
  | inclusion keyword ending text =>
    refine run_bind_eq_ok.mpr ⟨_, _, run_peek_cons front, run_tag_keyword front (by decide) ?_⟩
    exact run_nameTag_eq_ok.mpr ⟨_, _, ending, rest, rfl, text, rfl, (Pending.past_past start [_] _ _ rest).symm⟩
  | embedding keyword ending text =>
    refine run_bind_eq_ok.mpr ⟨_, _, run_peek_cons front, run_tag_keyword front (by decide) ?_⟩
    refine run_bind_eq_ok.mpr ⟨_, _, run_embedTag_eq_ok.mpr ⟨_, text, .inl ⟨ending, rest, rfl, rfl, rfl⟩⟩, ?_⟩
    exact run_pure_eq_ok.mpr ⟨rfl, Pending.past_past ..⟩
  | embeddingWith keyword marks bracket ending text bound =>
    refine run_bind_eq_ok.mpr ⟨_, _, run_peek_cons front, run_tag_keyword front (by decide) ?_⟩
    refine run_bind_eq_ok.mpr ⟨_, _, run_embedTag_eq_ok.mpr
      ⟨_, text, .inr ⟨marks, bracket, _, ending, rest, bound, rfl, rfl⟩⟩, ?_⟩
    refine run_pure_eq_ok.mpr ⟨?_, Pending.past_past ..⟩
    simp [Pending.past, List.getLast?_cons]

/-- A tag is a part of a conditional, or it is written with the tokens it is read from and declares no second layout
and no section twice. -/
theorem tag_eq_ok (reads : (tag source levels conditional opening).run start = .ok (stmt, next)) :
    (∃ taken, Tagged source levels opening stmt taken ∧ start.Declares stmt.declarations taken next) ∨
      ∃ keyword rest branches otherwise, start.tokens = ⟨.word "if", keyword⟩ :: rest ∧
        conditional.run (start.past [⟨.word "if", keyword⟩] rest) = .ok ((branches, otherwise), next) ∧
        stmt = .conditional branches otherwise (opening.upTo next.last) := by
  have output (reads : (tag.output levels opening).run start = .ok (stmt, next))
      (free : ∀ first ∈ start.tokens.head?, ∀ keyword ∈ keywords, first.token ≠ .word keyword) :
      ∃ taken, Tagged source levels opening stmt taken ∧ start.Declares stmt.declarations taken next := by
    obtain ⟨value, taken, ending, rest, takes, front, rfl, rfl⟩ := run_output_eq_ok.mp reads
    refine ⟨_, .output ending takes fun first found => free first ?_, .past front⟩
    rw [front, List.head?_append, List.head?_append, Option.mem_def.mp found]
    rfl
  obtain ⟨token, _, peeks, more⟩ := run_bind_eq_ok.mp reads
  obtain ⟨same, rfl⟩ := run_peek_eq_ok peeks
  rw [same] at more
  split at more
  · cases more
  · rename_i word ahead
    split at more
    · obtain ⟨⟨token, keyword⟩, _, takes, more⟩ := run_bind_eq_ok.mp more
      obtain ⟨behind, front, rfl⟩ := run_take_eq_ok.mp takes
      obtain rfl : token = .word word := by
        rw [front] at ahead
        exact Option.some.inj ahead
      have later {taken rest : List Lexeme} (split : behind = taken ++ rest) :
          start.tokens = ⟨.word word, keyword⟩ :: taken ++ rest := front.trans (congrArg (_ :: ·) split)
      split at more
      · obtain ⟨layout, _, one, more⟩ := run_bind_eq_ok.mp more
        obtain ⟨fresh, quoted, ending, rest, split, text, rfl⟩ := run_layoutTag_eq_ok.mp one
        obtain ⟨rfl, rfl⟩ := run_pure_eq_ok.mp more
        exact .inl ⟨_, .layout keyword ending text, later split, ⟨fresh, trivial⟩,
          Pending.behind_beyond _⟩
      · obtain ⟨⟨name, body⟩, _, one, more⟩ := run_bind_eq_ok.mp more
        obtain ⟨quoted, tagEnd, inner, close, closing, ending, rest, text, free, cut, fresh, split, rfl⟩ :=
          run_sectionTag_eq_ok.mp one
        obtain ⟨same, rfl⟩ := run_pure_eq_ok.mp more
        have same : stmt = .capture name body (opening.upTo ending) := by
          rw [← same]
          simp [Pending.past, Pending.beyond, sectionClose, List.getLast?_cons]
        subst same cut
        exact .inl ⟨_, .capture keyword tagEnd close closing ending text free, later split, ⟨fresh, trivial⟩,
          Pending.behind_beyond _⟩
      · obtain ⟨quoted, name, ending, rest, split, text, rfl, rfl⟩ := run_nameTag_eq_ok.mp more
        exact .inl ⟨_, .fill keyword ending text, later split, trivial, Pending.past_past start [_] _ _ rest⟩
      · obtain ⟨⟨branches, otherwise⟩, _, one, more⟩ := run_bind_eq_ok.mp more
        obtain ⟨rfl, rfl⟩ := run_pure_eq_ok.mp more
        exact .inr ⟨keyword, behind, branches, otherwise, front, one, rfl⟩
      · obtain ⟨⟨item, collection, part⟩, _, one, more⟩ := run_bind_eq_ok.mp more
        obtain ⟨place, marks, taken, uses, quoted, ending, rest, value, text, split, rfl⟩ :=
          run_eachTag_eq_ok.mp one
        obtain ⟨same, rfl⟩ := run_pure_eq_ok.mp more
        have same : stmt = .each item collection part (opening.upTo ending) := by
          rw [← same]
          simp [Pending.past, List.getLast?_cons]
        subst same
        exact .inl ⟨_, .each keyword place marks uses ending value text, later split, trivial,
          Pending.past_past start [_] _ _ rest⟩
      · obtain ⟨quoted, name, ending, rest, split, text, rfl, rfl⟩ := run_nameTag_eq_ok.mp more
        exact .inl ⟨_, .inclusion keyword ending text, later split, trivial,
          Pending.past_past start [_] _ _ rest⟩
      · obtain ⟨⟨name, bound⟩, _, one, more⟩ := run_bind_eq_ok.mp more
        obtain ⟨quoted, text, ⟨ending, rest, rfl, split, rfl⟩ |
          ⟨marks, bracket, taken, ending, rest, written, split, rfl⟩⟩ := run_embedTag_eq_ok.mp one
        · obtain ⟨rfl, rfl⟩ := run_pure_eq_ok.mp more
          exact .inl ⟨_, .embedding keyword ending text, later split, trivial, Pending.past_past start [_] _ _ rest⟩
        · obtain ⟨same, rfl⟩ := run_pure_eq_ok.mp more
          have same : stmt = .embedding name bound (opening.upTo ending) := by
            rw [← same]
            simp [Pending.past, List.getLast?_cons]
          subst same
          exact .inl ⟨_, .embeddingWith keyword marks bracket ending text written, later split, trivial,
            Pending.past_past start [_] _ _ rest⟩
      · cases more
    · rename_i plain
      refine .inl (output more fun first found keyword listed => ?_)
      rw [Option.mem_def.mp found] at ahead
      rintro same
      obtain rfl : keyword = word := Token.word.inj (same.symm.trans (Option.some.inj ahead))
      exact plain (List.contains_iff_mem.mpr listed)
  · rename_i other ahead
    refine .inl (output more fun first found keyword _ word => ?_)
    rw [Option.mem_def.mp found] at ahead
    exact other keyword (Option.some.inj ahead ▸ word)

end Stmt

end TextTemplate
