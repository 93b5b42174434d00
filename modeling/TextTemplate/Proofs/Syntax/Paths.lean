import TextTemplate.Proofs.Evaluation
import TextTemplate.Proofs.Syntax.Nesting
import TextTemplate.Proofs.Syntax.Segments

/-!
Dotted paths as they are written in a tag. A path in which no index follows another one is an expression
for the members that its segments name; any other one is no expression.
-/
namespace TextTemplate

/-- No line end stands behind a tag. -/
theorem Source.start_rest (s : String) :
    (Source.start (Template.tag s)).rest = '\x7b' :: '\x7b' :: (s.toList ++ ['\x7d', '\x7d']) := by
  have all : (Template.tag s).toList = '\x7b' :: '\x7b' :: (s.toList ++ ['\x7d', '\x7d']) := by
    simp [Template.tag]
  have last : (Template.tag s).toList = ('\x7b' :: '\x7b' :: s.toList ++ ['\x7d']) ++ ['\x7d'] := by
    simp [all]
  rw [start, Text.dropLineEnd, if_neg]
  · exact all
  · rw [last, List.getLast?_concat]
    decide

/-- Where a tag can start, it does. -/
theorem Cursor.step_opens {cursor : Cursor} {cs : List Char} (outside : cursor.inTag = false)
    (front : cursor.rest = '\x7b' :: '\x7b' :: cs) (opens : Lexer.opensTag cs = true) :
    ∃ opening inside, cursor.step = .lexeme ⟨.tagStart, opening⟩ inside ∧ inside.inTag = true ∧ inside.rest = cs := by
  have stepped : cursor.step = cursor.emit .tagStart 2 true := by
    rw [step, if_neg (Bool.eq_false_iff.mp outside), stepInText, front]
    dsimp only
    rw [if_pos (by simp [Lexer.startsPair, opens])]
  refine ⟨_, _, stepped, rfl, ?_⟩
  rw [advance, front]
  rfl

/-- Where no tag can start, text is cut. -/
theorem Cursor.step_text {cursor : Cursor} {c : Char} {cs : List Char} (outside : cursor.inTag = false)
    (front : cursor.rest = c :: cs)
    (closed : Lexer.startsPair '\x7b' (c :: cs) = true → Lexer.opensTag (cs.drop 1) = false) :
    ∃ span next,
      cursor.step = .lexeme ⟨.text (String.ofList ((c :: cs).take (Lexer.textLength (c :: cs)))), span⟩ next ∧
        next.inTag = false ∧ next.rest = (c :: cs).drop (Lexer.textLength (c :: cs)) := by
  have unopened : ¬(Lexer.startsPair '\x7b' (c :: cs) && Lexer.opensTag (cs.drop 1)) = true := by
    intro opens
    obtain ⟨pair, opens⟩ := Bool.and_eq_true_iff.mp opens
    rw [closed pair] at opens
    cases opens
  have stepped : cursor.step = cursor.emit (.text (String.ofList ((c :: cs).take (Lexer.textLength (c :: cs)))))
      (Lexer.textLength (c :: cs)) false := by
    rw [step, if_neg (Bool.eq_false_iff.mp outside), stepInText, front]
    dsimp only
    rw [if_neg unopened]
  refine ⟨_, _, stepped, rfl, ?_⟩
  rw [advance, front]

/-- Where a tag can start at the start of its source, it does. -/
theorem Source.start_opens {s : String} (opens : Lexer.opensTag (s.toList ++ ['\x7d', '\x7d']) = true) :
    ∃ opening inside, (Source.start (Template.tag s)).step = .lexeme ⟨.tagStart, opening⟩ inside ∧
      inside.inTag = true ∧ inside.rest = s.toList ++ ['\x7d', '\x7d'] :=
  Cursor.step_opens rfl (start_rest s) opens

/-- A tag without two opening braces inside starts where its source does. -/
theorem Source.start_tag {s : String} (apart : Lexer.pairIndex? '\x7b' s.toList = none) :
    ∃ opening inside, (Source.start (Template.tag s)).step = .lexeme ⟨.tagStart, opening⟩ inside ∧
      inside.inTag = true ∧ inside.rest = s.toList ++ ['\x7d', '\x7d'] :=
  start_opens (Lexer.opensTag_of_none apart [])

/-- Behind blanks, two closing braces end a tag. -/
theorem Cursor.step_closes {cursor : Cursor} {blanks cs : List Char} (inTag : cursor.inTag = true)
    (front : cursor.rest = blanks ++ '\x7d' :: '\x7d' :: cs) (blank : ∀ d ∈ blanks, Text.isTagSpace d = true) :
    ∃ ending outside, cursor.step = .lexeme ⟨.tagEnd, ending⟩ outside ∧ outside.inTag = false ∧
      outside.rest = cs := by
  have behind : cursor.skipBlanks.rest = '\x7d' :: '\x7d' :: cs := skipBlanks_append front blank rfl
  have stepped : cursor.step = cursor.skipBlanks.emit .tagEnd 2 false := by
    rw [step, if_pos inTag, stepInTag]
    dsimp only
    rw [behind]
    rfl
  refine ⟨_, _, stepped, rfl, ?_⟩
  rw [advance, behind]
  rfl

/-- Outside of tags nothing is cut at the end of a source. -/
theorem Cursor.lexemes_end {cursor : Cursor} (outside : cursor.inTag = false) (nothing : cursor.rest = []) :
    cursor.lexemes = ⟨[], none⟩ := by
  have stepped : cursor.step = .finished := by
    rw [step, if_neg (Bool.eq_false_iff.mp outside), stepInText, nothing]
  rw [lexemes]
  split <;> simp_all

/-- The tokens of a tag in which some are cut up to the blanks at its end. -/
theorem Source.tokens_of_cuts {text : String} {opening : Span} {inside : Cursor} {tokens : List Token}
    (blanks : List Char) (blank : ∀ d ∈ blanks, Text.isTagSpace d = true)
    (stepped : (start text).step = .lexeme ⟨.tagStart, opening⟩ inside)
    (cuts : inside.Cuts tokens (blanks ++ ['\x7d', '\x7d'])) :
    (lexemes text).problem = none ∧ tokensOf (lexemes text).tokens = .tagStart :: (tokens ++ [.tagEnd]) := by
  obtain ⟨before, last, lexes, same, inTag, front⟩ := cuts
  obtain ⟨ending, behind, closes, outside, nothing⟩ := Cursor.step_closes inTag front blank
  have all : lexemes text = ⟨⟨.tagStart, opening⟩ :: (before ++ [⟨.tagEnd, ending⟩]), none⟩ := by
    rw [lexemes, (Cursor.Lexes.step stepped lexes).lexemes, (Cursor.Lexes.step closes (.done _)).lexemes,
      Cursor.lexemes_end outside nothing]
    rfl
  rw [all, ← same]
  simp

/-- The members of an expression that segments name. -/
def Expr.members (e : Expr) (segments : List Segment) : Expr :=
  segments.foldl (fun e segment => .member e segment.text {}) e

section Reading

open Parse

variable {nesting levels : Nat} {e : Expr} {lexemes rest : List Lexeme} {start : Pending} {first next : Lexeme}
  {misread : Misread}

theorem Expr.spelled_members {before : List Token} (spelled : Expr.Spelled nesting .path e before)
    (segments : List Segment) :
    Expr.Spelled nesting .path (e.members segments) (before ++ Segment.tokens segments) := by
  induction segments generalizing e before with
  | nil => simpa [Segment.tokens, members] using spelled
  | cons segment rest ih =>
    have member : Expr.Spelled nesting .path (.member e segment.text {}) (before ++ [.dot, segment.token]) :=
      spelled.member segment.segmentName_token
    have longer := ih member
    rwa [List.append_assoc] at longer

/-- What spells an expression is read as it, up to its spans. -/
theorem Expr.Spelled.reads (spelled : Expr.Spelled nesting .or e (tokensOf lexemes)) (enough : 2 * nesting < levels) :
    ∃ value, (Expr.parse (levels + 1)).Reads value lexemes ∧ value.bare = e.bare := by
  let start : Pending := { tokens := lexemes ++ [⟨.tagEnd, {}⟩], problem := none, last := {} }
  have stops (level : Level) : level.takes .tagEnd = false := Token.closes_tagEnd level
  obtain ⟨next, value, behind, bare, reads⟩ :=
    (spelled.passes enough).reads rfl (show start.tokens = _ from rfl) fun level _ => stops level
  rw [Level.loop_stops behind (stops .or)] at reads
  exact ⟨value, ⟨start, next, reads, by rw [behind]⟩, bare⟩

/-- Where no operand can be read, no expression can, unless a negation stands in front. -/
theorem Level.disjunction_error {atom : Parse Expr} (fails : atom.run start = .error misread)
    (front : start.tokens = first :: rest) (plain : Expr.isNot first.token = false) :
    (Expr.disjunction atom).run start = .error misread := by
  have looser (level : Level) (inner : level ≠ path) (plain : level ≠ not)
      (fails : (level.tighter.reader atom).run start = .error misread) :
      (level.reader atom).run start = .error misread := by
    rw [run_reader inner plain, fails]
    rfl
  have filter := looser .filter (by decide) (by decide) fails
  have comparison := looser .comparison (by decide) (by decide) filter
  have not : (Level.not.reader atom).run start = .error misread := by
    rw [reader, Expr.run_negation, front]
    dsimp only
    rw [if_neg (by rw [plain]; decide)]
    exact comparison
  have and := looser .and (by decide) (by decide) not
  exact looser .or (by decide) (by decide) and

/-- Behind a path, a dot is read only with a segment behind it. -/
theorem Expr.parse_unnamed {before : List Token} (spelled : Expr.Spelled nesting .path e before)
    (enough : 2 * nesting < levels) (same : tokensOf lexemes = before ++ [.dot])
    (unnamed : Expr.segmentName next.token = none) (front : start.tokens = lexemes ++ next :: rest) :
    ∃ misread, (Expr.parse (levels + 1)).run start = .error misread := by
  obtain ⟨inner, _, rfl, sameInner, ended⟩ := List.map_eq_append_iff.mp same
  obtain ⟨dot, _, rfl, dots, ended⟩ := List.map_eq_cons_iff.mp ended
  obtain rfl := List.map_eq_nil_iff.mp ended
  have front' : start.tokens = inner ++ dot :: (next :: rest) := by simpa using front
  obtain ⟨middle, left, behind, -, reads⟩ := (spelled.passes enough).reads sameInner front' (Level.stops_path _)
  have error : (expect "path segment" segmentName).run (middle.behind dot (next :: rest)) =
      .error (((middle.behind dot (next :: rest)).behind next rest).misread
        (.unexpected next.token.description "path segment")) := by
    rw [run_expect, run_take_cons rfl]
    dsimp only [bind, Except.bind]
    rw [unnamed]
  have fails : (operand levels).run start = .error (((middle.behind dot (next :: rest)).behind next rest).misread
      (.unexpected next.token.description "path segment")) := by
    refine Eq.trans reads ?_
    rw [Level.loop, run_segments, behind]
    dsimp only
    rw [if_pos dots, error]
    rfl
  obtain ⟨token, tokens, split, plain⟩ := spelled.head rfl
  obtain ⟨first, inner, rfl, rfl, -⟩ := List.map_eq_cons_iff.mp (sameInner.trans split)
  exact ⟨_, Level.disjunction_error fails front plain⟩

/-- A tag that starts with a word that is no keyword is read as an expression. -/
theorem Stmt.Spelled.output {source : List Char} {all : List Stmt} {opening : Span} {name : String}
    (spelled : Stmt.Spelled source levels (.statements all) (⟨.tagStart, opening⟩ :: first :: rest))
    (named : first.token = .word name) (noKeyword : name ∉ Stmt.keywords) :
    ∃ value taken ending later, (Expr.parse levels).Reads value taken ∧
      first :: rest = taken ++ ⟨.tagEnd, ending⟩ :: later := by
  generalize split : (⟨.tagStart, opening⟩ : Lexeme) :: first :: rest = tokens at spelled
  have other {keyword : String} {span : Span} {inner : List Lexeme} (found : keyword ∈ Stmt.keywords) :
      first :: rest ≠ ⟨.word keyword, span⟩ :: inner := by
    intro same
    obtain rfl := (List.cons.inj same).1
    exact noKeyword (Token.word.inj named ▸ found)
  cases spelled with
  | tag mark tagged later =>
    have behind := (List.cons.inj split).2
    cases tagged with
    | output ending reads free => exact ⟨_, _, ending, _, reads, by simpa using behind⟩
    | _ => exact absurd behind (other (by decide))
  | conditional => exact absurd (List.cons.inj split).2 (other (by decide))
  | text => cases split
  | done => cases split

/-- A tag whose tokens spell an expression is an output of it, unless it starts with a keyword. -/
theorem Stmt.Spelled.output_cons {source : List Char} {opening ending : Span} {stmts : List Stmt} {later : List Lexeme}
    (spelled : Expr.Spelled nesting .or e (tokensOf lexemes)) (enough : 2 * (nesting + 1) ≤ maxSyntaxLevels)
    (free : ∀ first ∈ lexemes.head?, ∀ keyword ∈ Stmt.keywords, first.token ≠ .word keyword)
    (behind : Stmt.Spelled source maxSyntaxLevels (.statements stmts) later) :
    ∃ value, value.bare = e.bare ∧
      Stmt.Spelled source maxSyntaxLevels (.statements (.output value (opening.upTo ending) :: stmts))
        (⟨.tagStart, opening⟩ :: (lexemes ++ ⟨.tagEnd, ending⟩ :: later)) := by
  have inner : 2 * nesting < maxSyntaxLevels - 1 := by omega
  obtain ⟨value, reads, bare⟩ := spelled.reads inner
  have tagged : Stmt.Tagged source maxSyntaxLevels opening (.output value (opening.upTo ending))
      (lexemes ++ [⟨.tagEnd, ending⟩]) := .output ending reads free
  exact ⟨value, bare, by simpa using Stmt.Spelled.tag opening tagged behind⟩

/-- A tag is read as the expression that its tokens spell, unless it starts with a keyword. -/
theorem Template.parse_output {text : String} {opening ending : Span}
    (cut : (Source.start text).lexemes = ⟨⟨.tagStart, opening⟩ :: (lexemes ++ [⟨.tagEnd, ending⟩]), none⟩)
    (spelled : Expr.Spelled nesting .or e (tokensOf lexemes)) (enough : 2 * (nesting + 1) ≤ maxSyntaxLevels)
    (free : ∀ first ∈ lexemes.head?, ∀ keyword ∈ Stmt.keywords, first.token ≠ .word keyword) (name : String) :
    ∃ template value span, parse text name = .ok template ∧ template.children = [.output value span] ∧
      value.bare = e.bare := by
  have one : ∃ value, value.bare = e.bare ∧
      Stmt.Spelled text.toList maxSyntaxLevels (.statements [.output value (opening.upTo ending)])
        (⟨.tagStart, opening⟩ :: (lexemes ++ [⟨.tagEnd, ending⟩])) :=
    Stmt.Spelled.output_cons spelled enough free .done
  obtain ⟨value, bare, statements⟩ := one
  have once : Stmt.DeclaresOnce [.output value (opening.upTo ending)] :=
    ⟨List.nodup_nil, Nat.zero_le 1⟩
  obtain ⟨template, parsed, children⟩ := parseFrom_spelledAs.mpr
    ⟨by rw [cut], by rw [cut]; exact statements, once⟩
  refine ⟨template, value, opening.upTo ending, ?_, children, bare⟩
  rw [parse, parsed]

/-- A source that is cut into one tag is read as the expression that the tokens in the tag spell. -/
theorem Template.parse_tag {text : String} {tokens : List Token} (whole : (Source.lexemes text).problem = none)
    (cut : tokensOf (Source.lexemes text).tokens = .tagStart :: (tokens ++ [.tagEnd]))
    (spelled : Expr.Spelled nesting .or e tokens) (enough : 2 * (nesting + 1) ≤ maxSyntaxLevels)
    (free : ∀ keyword ∈ Stmt.keywords, tokens.head? ≠ some (.word keyword)) (name : String) :
    ∃ template value span, parse text name = .ok template ∧ template.children = [.output value span] ∧
      value.bare = e.bare := by
  obtain ⟨⟨_, opening⟩, inner, all, rfl, same⟩ := List.map_eq_cons_iff.mp cut
  obtain ⟨middle, last, rfl, rfl, final⟩ := List.map_eq_append_iff.mp same
  obtain ⟨⟨_, ending⟩, last, rfl, rfl, empty⟩ := List.map_eq_cons_iff.mp final
  obtain rfl := List.map_eq_nil_iff.mp empty
  have split : (Source.start text).lexemes = ⟨⟨.tagStart, opening⟩ :: (middle ++ [⟨.tagEnd, ending⟩]), none⟩ := by
    show Source.lexemes text = _
    rw [← all, ← whole]
  refine parse_output split spelled enough ?_ name
  intro first found keyword listed written
  obtain ⟨rest, rfl⟩ := List.head?_eq_some_iff.mp found
  exact free keyword listed (congrArg some written)

end Reading

/-- A dotted path whose first segment is the name of a variable. -/
structure DottedPath where
  name : String
  isWord : Lexer.isWord name = true
  isName : Expr.IsName name
  noKeyword : name ∉ Stmt.keywords
  segments : List Segment

namespace DottedPath

def pieces (path : DottedPath) : List String :=
  path.name :: path.segments.map Segment.text

def text (path : DottedPath) : String :=
  ".".intercalate path.pieces

/-- The tag that writes what a path stands for. -/
def source (path : DottedPath) : String :=
  Template.tag (" " ++ path.text ++ " ")

def tokens (path : DottedPath) : List Token :=
  .word path.name :: Segment.tokens path.segments

def expr (path : DottedPath) : Expr :=
  Expr.members (.var path.name {}) path.segments

variable (path : DottedPath)

theorem text_toList : path.text.toList = path.name.toList ++ Segment.chars path.segments := by
  rw [text, String.toList_intercalate, pieces]
  generalize path.name = name
  induction path.segments generalizing name with
  | nil => simp [Segment.chars]
  | cons segment rest ih =>
    have later := ih segment.text
    simp only [List.map_cons, List.intercalate_cons_cons] at later ⊢
    rw [later]
    simp [Segment.chars]

/-- No opening brace stands in a path. -/
theorem text_unopened : '\x7b' ∉ path.text.toList := by
  intro found
  rw [text_toList] at found
  rcases List.mem_append.mp found with found | found
  · exact absurd ((Segment.word path.name path.isWord).text_wordChars _ found) (by decide)
  · obtain ⟨segment, -, found⟩ := List.mem_flatMap.mp found
    rcases List.mem_cons.mp found with same | found
    · cases same
    · exact absurd (segment.text_wordChars _ found) (by decide)

/-- The tag of a path starts with its name. -/
theorem source_front : ∃ opening inside, (Source.start path.source).step = .lexeme ⟨.tagStart, opening⟩ inside ∧
    inside.Cuts [.word path.name] (Segment.chars path.segments ++ [' ', '\x7d', '\x7d']) := by
  have spaced : (" " ++ path.text ++ " ").toList =
      ' ' :: (path.name.toList ++ (Segment.chars path.segments ++ [' '])) := by
    simp [text_toList]
  have unopened : '\x7b' ∉ (" " ++ path.text ++ " ").toList := by simp [path.text_unopened]
  obtain ⟨opening, inside, stepped, inTag, front⟩ := Source.start_tag (Lexer.pairIndex?_of_not_mem unopened)
  refine ⟨opening, inside, stepped, ?_⟩
  let first : Segment := .word path.name path.isWord
  have front : inside.rest =
      [' '] ++ (first.text.toList ++ (Segment.chars path.segments ++ [' ', '\x7d', '\x7d'])) := by
    rw [front, spaced]
    simp [first, Segment.text]
  exact first.cuts inTag front Text.isTagSpace_blank (Segment.chars_boundary path.segments _)
    fun index => absurd index Bool.false_ne_true

/-- The tokens of a path whose segments are apart. -/
theorem tokens_apart (split : Segment.apart path.segments = true) :
    (Source.lexemes path.source).problem = none ∧
      tokensOf (Source.lexemes path.source).tokens = .tagStart :: (path.tokens ++ [.tagEnd]) := by
  obtain ⟨opening, inside, stepped, named⟩ := path.source_front
  exact Source.tokens_of_cuts [' '] Text.isTagSpace_blank stepped (named.trans fun next => Segment.cuts_all split)

/-- The tokens of a path whose segments are not apart, if they can be cut. -/
theorem lexemes_joined (joined : Segment.apart path.segments = false)
    (whole : (Source.start path.source).lexemes.problem = none) :
    ∃ (opening : Span) (before : List Segment) (lexemes : List Lexeme) (next : Lexeme) (rest : List Lexeme),
      (Source.start path.source).lexemes.tokens = ⟨.tagStart, opening⟩ :: (lexemes ++ next :: rest) ∧
      tokensOf lexemes = .word path.name :: (Segment.tokens before ++ [.dot]) ∧
      Expr.segmentName next.token = none := by
  obtain ⟨opening, inside, stepped, named⟩ := path.source_front
  obtain ⟨before, behind, cuts, breaks⟩ := Segment.cuts_upTo joined ['\x7d', '\x7d']
  obtain ⟨lexemes, last, lexes, same, inTag, front⟩ := named.trans cuts
  have all := (Cursor.Lexes.step stepped lexes).lexemes
  rw [all] at whole ⊢
  rcases breaks last inTag front with ⟨problem, next, failed⟩ | ⟨next, behind, cut, unnamed⟩
  · have broken : last.lexemes.problem = some problem := by
      rw [Cursor.lexemes]
      split <;> simp_all
    rw [broken] at whole
    cases whole
  · refine ⟨opening, before, lexemes, next, behind.lexemes.tokens, ?_, same, unnamed⟩
    rw [(Cursor.Lexes.step cut (.done behind)).lexemes]
    rfl

theorem spelled : Expr.Spelled 0 .path path.expr path.tokens :=
  Expr.spelled_members (.name path.isName) path.segments

/-- A path whose segments are apart is a template that writes what the path stands for. -/
theorem parse_apart (split : Segment.apart path.segments = true) (name : String) :
    ∃ template value span, Template.parse path.source name = .ok template ∧
      template.children = [.output value span] ∧ value.bare = path.expr.bare := by
  obtain ⟨whole, cut⟩ := path.tokens_apart split
  refine Template.parse_tag whole cut (path.spelled.loosened (Nat.zero_le _)) (by decide) ?_ name
  rintro _ found ⟨⟩
  exact path.noKeyword found

/-- A path in which an index follows another one is no template. -/
theorem parse_joined (joined : Segment.apart path.segments = false) (name : String) :
    ∃ fault, Template.parse path.source name = .error fault ∧ fault.kind = .syntaxError := by
  obtain ⟨template, -, whole, spelled, -⟩ | ⟨fault, failed, kind, -⟩ := Template.parse_eq path.source name
  · obtain ⟨opening, before, lexemes, next, rest, cut, same, unnamed⟩ := path.lexemes_joined joined whole
    obtain ⟨first, inner, rfl, token, -⟩ := List.map_eq_cons_iff.mp same
    rw [cut] at spelled
    obtain ⟨value, taken, ending, later, reads, split⟩ := spelled.output token path.noKeyword
    have named : Expr.Spelled 0 .path (.var path.name {}) [.word path.name] := .name path.isName
    let start : Pending := { tokens := first :: inner ++ next :: rest, problem := none, last := {} }
    obtain ⟨misread, error⟩ :=
      Expr.parse_unnamed (Expr.spelled_members named before) (show 2 * 0 < 149 by decide) same unnamed
        (show start.tokens = _ from rfl)
    have front : start.tokens = taken ++ ⟨.tagEnd, ending⟩ :: later := split
    have read := reads.run (Expr.parse_local _) front Token.closes_tagEnd
    cases error.symm.trans read
  · exact ⟨fault, failed, kind⟩

end DottedPath

end TextTemplate
