import TextTemplate.Proofs.Evaluation
import TextTemplate.Proofs.Syntax.Nesting
import TextTemplate.Proofs.Syntax.Recutting
import TextTemplate.Proofs.Syntax.Tiling

/-!
The bodies of sections. The body of a section is the source between the tag that starts it and the tag
that ends it, and cut on its own, at its place in the template, it gives the tokens that stand there
in the whole.
-/
namespace TextTemplate

open Parse
open String (utf8Len)

namespace Phrase

def declarations : Phrase → List Declaration
  | .statements all => Stmt.allDeclarations all
  | .tag stmt => stmt.declarations
  | .branches all otherwise => Stmt.branchDeclarations all ++ Stmt.otherwiseDeclarations otherwise

/-- The tokens of a part of a template, those of a tag with its start. -/
def whole (opening : Span) : Phrase → List Lexeme → List Lexeme
  | .tag _, tokens => ⟨.tagStart, opening⟩ :: tokens
  | .statements _, tokens | .branches .., tokens => tokens

end Phrase

/-- The two tags of a section: the tag that starts it, with its name, and the tag that ends it. -/
structure SectionTags where
  opening : Span
  keyword : Span
  name : Lexeme
  tagEnd : Span
  close : Span
  closing : Span
  ending : Span

namespace SectionTags

def first (tags : SectionTags) : List Lexeme :=
  [⟨.tagStart, tags.opening⟩, ⟨.word "section", tags.keyword⟩, tags.name, ⟨.tagEnd, tags.tagEnd⟩]

def last (tags : SectionTags) : List Lexeme :=
  [⟨.tagStart, tags.close⟩, ⟨.word "endsection", tags.closing⟩, ⟨.tagEnd, tags.ending⟩]

/-- Where the body starts. -/
def start (tags : SectionTags) : Position :=
  tags.tagEnd.stop

/-- Where the body ends. -/
def stop (tags : SectionTags) : Position :=
  tags.close.start

def body (tags : SectionTags) (source : List Char) : SectionBody :=
  ⟨String.ofList (Text.slice tags.start.offset tags.stop.offset source), tags.start.line, tags.start.column⟩

end SectionTags

/-- A section stands among some tokens, with no tag of a section inside. -/
def Captured (source : List Char) (name : String) (body : SectionBody) (tokens : List Lexeme) : Prop :=
  ∃ (tags : SectionTags) (inner : List Lexeme), tags.first ++ inner ++ tags.last <:+: tokens ∧
    Stmt.stringText tags.name.token = some name ∧ holdsSectionTag inner = false ∧ body = tags.body source

variable {source : List Char} {phrase : Phrase} {tokens more : List Lexeme} {name : String} {body : SectionBody}

theorem Captured.mono (captured : Captured source name body tokens) (within : tokens <:+: more) :
    Captured source name body more := by
  obtain ⟨tags, inner, place, rest⟩ := captured
  exact ⟨tags, inner, place.trans within, rest⟩

/-- Every section of a template stands among its tokens. -/
theorem Written.captures (written : Written source phrase tokens) (found : .capture name body ∈ phrase.declarations)
    (opening : Span) : Captured source name body (phrase.whole opening tokens) := by
  induction written generalizing opening with
  | done => cases found
  | text raw span _ ih => exact (ih found opening).mono (List.suffix_cons _ _).isInfix
  | @tag stmt rest inner later start _ _ first second =>
    rcases List.mem_append.mp found with found | found
    · exact (first found start).mono (List.prefix_append _ later).isInfix
    · exact (second found start).mono ⟨⟨.tagStart, start⟩ :: inner, [], by simp [Phrase.whole]⟩
  | output | fill | each | inclusion | embedding | embeddingWith => cases found
  | layout => simp [Phrase.declarations, Stmt.declarations] at found
  | @capture quoted name inner span keyword tagEnd close closing ending text free =>
    obtain ⟨rfl, rfl⟩ := Declaration.capture.inj (List.mem_singleton.mp found)
    refine ⟨⟨opening, keyword, quoted, tagEnd, close, closing, ending⟩, inner, ?_, text, free, rfl⟩
    exact ⟨[], [], by simp [SectionTags.first, SectionTags.last, Phrase.whole]⟩
  | @conditional levels first body' rest otherwise condition inner span keyword ending _ _ ih =>
    exact (ih found opening).mono ⟨⟨.tagStart, opening⟩ :: ⟨.word "if", keyword⟩ :: condition, [⟨.tagEnd, ending⟩],
      by simp [Phrase.whole]⟩
  | @lastBranch condition body' inner ending start keyword _ ih =>
    have found : Declaration.capture name body ∈ Stmt.allDeclarations body' := by
      simpa [Phrase.declarations, Stmt.branchDeclarations, Stmt.otherwiseDeclarations] using found
    exact (ih found opening).mono ⟨[⟨.tagEnd, ending⟩], [⟨.tagStart, start⟩, ⟨.word "endif", keyword⟩],
      by simp [Phrase.whole]⟩
  | @otherwise condition body' other inner later ending start keyword ending' start' keyword' _ _ first second =>
    have found : Declaration.capture name body ∈ Stmt.allDeclarations body' ++ Stmt.allDeclarations other := by
      simpa [Phrase.declarations, Stmt.branchDeclarations, Stmt.otherwiseDeclarations] using found
    rcases List.mem_append.mp found with found | found
    · exact (first found opening).mono ⟨[⟨.tagEnd, ending⟩], _,
        by rw [Phrase.whole, Phrase.whole, List.singleton_append, List.cons_append]⟩
    · exact (second found opening).mono ⟨⟨.tagEnd, ending⟩ ::
          (inner ++ [⟨.tagStart, start⟩, ⟨.word "else", keyword⟩, ⟨.tagEnd, ending'⟩]),
        [⟨.tagStart, start'⟩, ⟨.word "endif", keyword'⟩], by simp [Phrase.whole]⟩
  | @anotherBranch levels condition second body' next rest other inner taken later ending start keyword _ _ _
      first more =>
    have found : Declaration.capture name body ∈ Stmt.allDeclarations body' ++
        (Phrase.branches ((second, next) :: rest) other).declarations := by
      simpa [Phrase.declarations, Stmt.branchDeclarations] using found
    rcases List.mem_append.mp found with found | found
    · exact (first found opening).mono ⟨[⟨.tagEnd, ending⟩], _,
        by rw [Phrase.whole, Phrase.whole, List.singleton_append, List.cons_append]⟩
    · exact (more found opening).mono ⟨⟨.tagEnd, ending⟩ ::
          (inner ++ ⟨.tagStart, start⟩ :: ⟨.word "elseif", keyword⟩ :: taken), [],
        by simp [Phrase.whole]⟩

namespace SectionTags

variable {tags : SectionTags} {before after : List Lexeme} {cursor next : Cursor}

/-- Where a cursor stands behind the tag that starts a section. -/
theorem opened (lexes : cursor.Lexes (before ++ tags.first) next) :
    next.inTag = false ∧ next.position = tags.start := by
  have ends : before ++ tags.first =
      (before ++ [⟨.tagStart, tags.opening⟩, ⟨.word "section", tags.keyword⟩, tags.name]) ++
      [⟨.tagEnd, tags.tagEnd⟩] := by simp [first]
  rw [ends] at lexes
  obtain ⟨_, _, lexesEnd⟩ := Cursor.lexes_append.mp lexes
  cases lexesEnd with
  | step stepped nothing =>
    cases nothing
    obtain ⟨_, _, takes⟩ := Cursor.step_takes stepped
    exact ⟨takes.inTag, takes.position⟩

/-- Where a cursor stands in front of the tag that ends a section. -/
theorem closed (lexes : cursor.Lexes (tags.last ++ after) next) :
    cursor.inTag = false ∧ cursor.position = tags.stop ∧ ∃ behind, cursor.rest = '\x7b' :: '\x7b' :: behind := by
  rw [last, List.cons_append] at lexes
  cases lexes with
  | @step _ inside _ _ _ stepped _ =>
    obtain ⟨blanks, text, takes⟩ := Cursor.step_takes stepped
    have outside : cursor.inTag = false := takes.inner.symm
    obtain rfl := takes.outside outside
    obtain rfl : text = ['\x7b', '\x7b'] := takes.spells
    exact ⟨outside, takes.start.symm, inside.rest, takes.rest⟩

end SectionTags

namespace Template

/-- A source is accepted, as a template or as a part that was cut out of one. -/
inductive Accepted (source : String) : Cursor → Template → Prop where
  | whole {name : String} {template : Template} :
    Template.parse source name = .ok template → Accepted source (Source.start source) template
  | part {name : String} {line column : Nat} {template : Template} :
    Template.parsePart source name line column = .ok template →
    Accepted source (Source.startAt source line column) template

variable {source : String} {cursor : Cursor} {template : Template}

theorem Accepted.parseFrom (accepted : Accepted source cursor template) :
    parseFrom source.toList cursor = .ok template := by
  cases accepted with
  | whole parsed =>
    unfold Template.parse at parsed
    split at parsed <;> cases parsed
    assumption
  | part parsed =>
    unfold Template.parsePart at parsed
    split at parsed <;> cases parsed
    assumption

/-- The statements of a template are written with the tokens of its source. -/
theorem Accepted.written (accepted : Accepted source cursor template) :
    Written source.toList (.statements template.children) cursor.lexemes.tokens :=
  (parseFrom_spelledAs.mp ⟨template, accepted.parseFrom, rfl⟩).spelled.written

theorem Accepted.start (accepted : Accepted source cursor template) :
    cursor.position.offset = 0 ∧ ∃ ending, source.toList = cursor.rest ++ ending := by
  cases accepted with
  | whole =>
    refine ⟨rfl, ?_⟩
    rcases Text.dropLineEnd_cases source.toList with cut | ⟨cut, -⟩ | ⟨cut, -⟩
    · exact ⟨_, cut⟩
    · exact ⟨_, cut⟩
    · exact ⟨[], cut.trans (List.append_nil _).symm⟩
  | part => exact ⟨rfl, [], (List.append_nil _).symm⟩

/-- What stands between the tags of a section is cut into the same tokens on its own. -/
theorem Accepted.cut {tags : SectionTags} {before inner after : List Lexeme}
    (accepted : Accepted source cursor template)
    (split : cursor.lexemes.tokens = before ++ (tags.first ++ inner ++ tags.last) ++ after) :
    let body := tags.body source.toList
    let alone := (Source.startAt body.text body.line body.column).lexemes
    ∃ front behind : List Char,
      source.toList = front ++ body.text.toList ++ behind ∧
      utf8Len front = tags.start.offset ∧ utf8Len (front ++ body.text.toList) = tags.stop.offset ∧
      alone.problem = none ∧ inner = alone.tokens.map (Lexeme.moved (utf8Len front)) := by
  intro body alone
  obtain ⟨origin, ending, whole⟩ := accepted.start
  obtain ⟨last, lexes, -⟩ := Cursor.lexes_lexemes cursor
  -- the cursors behind the first tag and in front of the last one
  rw [split, List.append_assoc, List.append_assoc, List.append_assoc, ← List.append_assoc before] at lexes
  obtain ⟨first, lexesFirst, lexes⟩ := Cursor.lexes_append.mp lexes
  obtain ⟨close, lexesInner, lexes⟩ := Cursor.lexes_append.mp lexes
  have opened : first.inTag = false ∧ first.position = tags.start := SectionTags.opened lexesFirst
  obtain ⟨outside, ends, behind, braces⟩ := SectionTags.closed lexes
  obtain ⟨front, restFirst, positionFirst⟩ := lexesFirst.taken
  obtain ⟨cut, restClose, positionClose⟩ := lexesInner.taken
  have start : utf8Len front = tags.start.offset := by
    rw [← opened.2, positionFirst, Position.after_offset, origin, Nat.zero_add]
  have stop : utf8Len (front ++ cut) = tags.stop.offset := by
    rw [← ends, positionClose, Position.after_offset, opened.2, ← start, String.utf8Len_append]
  have all : source.toList = front ++ cut ++ (close.rest ++ ending) := by
    rw [whole, restFirst, restClose]
    simp only [List.append_assoc]
  have text : body.text.toList = cut := by
    show (String.ofList _).toList = cut
    rw [String.toList_ofList, ← start, ← stop, all]
    exact Text.slice_between front cut _
  have alone : Cursor.Front (utf8Len front) close.rest (Source.startAt body.text body.line body.column) first := by
    refine ⟨opened.1, ?_, ?_⟩
    · rw [opened.2, start]
      simp [Position.moved, Source.startAt, body, SectionTags.body]
    · rw [restClose, ← text]
      rfl
  obtain ⟨problem, tokens⟩ := alone.lexemes lexesInner braces outside
  rw [text]
  exact ⟨front, _, all, start, stop, problem, tokens⟩

/-- The body of a section is the source between its two tags, and cut on its own it gives the tokens
between them, in the same lines and columns. -/
theorem Accepted.section_recut (accepted : Accepted source cursor template)
    (found : .capture name body ∈ template.declarations) :
    ∃ (tags : SectionTags) (before inner after : List Lexeme) (front behind : List Char),
      cursor.lexemes.tokens = before ++ (tags.first ++ inner ++ tags.last) ++ after ∧
      Stmt.stringText tags.name.token = some name ∧ holdsSectionTag inner = false ∧
      source.toList = front ++ body.text.toList ++ behind ∧
      utf8Len front = tags.start.offset ∧ utf8Len (front ++ body.text.toList) = tags.stop.offset ∧
      body.line = tags.start.line ∧ body.column = tags.start.column ∧
      (Source.startAt body.text body.line body.column).lexemes.problem = none ∧
      inner = (Source.startAt body.text body.line body.column).lexemes.tokens.map (Lexeme.moved (utf8Len front)) := by
  obtain ⟨tags, inner, ⟨before, after, split⟩, text, free, rfl⟩ := accepted.written.captures found {}
  obtain ⟨front, behind, all, start, stop, problem, tokens⟩ := accepted.cut split.symm
  exact ⟨tags, before, inner, after, front, behind, split.symm, text, free, all, start, stop, rfl, rfl, problem, tokens⟩

/-- A section in a branch, with braces in a string, a stray pair of braces, and characters of several bytes. -/
theorem Accepted.section_recut_stray :
    let source := "é\n" ++ tag "if x" ++ "\n ü" ++ tag "section 'a'" ++ "\n\x7b\x7b \x7b ä" ++ tag "y | f: '\x7d\x7d'" ++
      "\x7d\x7d" ++ tag "endsection" ++ "b" ++ tag "endif"
    let body : SectionBody := ⟨"\n\x7b\x7b \x7b ä" ++ tag "y | f: '\x7d\x7d'" ++ "\x7d\x7d", 3, 17⟩
    ∃ template, Template.parse source "page" = .ok template ∧ .capture "a" body ∈ template.declarations ∧
      ∃ (tags : SectionTags) (before inner after : List Lexeme) (n : Nat), inner.length = 10 ∧
        (Source.start source).lexemes.tokens = before ++ (tags.first ++ inner ++ tags.last) ++ after ∧
        inner = (Source.startAt body.text 3 17).lexemes.tokens.map (Lexeme.moved n) := by
  intro source body
  obtain ⟨⟨template, parsed, declared⟩, length⟩ :
      (∃ template, Template.parse source "page" = .ok template ∧ template.body? "a" = some body) ∧
      (Source.startAt body.text 3 17).lexemes.tokens.length = 10 := by
    decide +kernel
  obtain ⟨declaration, found, same⟩ := List.exists_of_findSome?_eq_some declared
  cases declaration with
  | layout => cases same
  | capture name body' =>
    obtain ⟨rfl, same⟩ := Option.ite_none_right_eq_some.mp same
    obtain rfl := Option.some.inj same
    obtain ⟨tags, before, inner, after, front, behind, split, -, -, -, -, -, -, -, -, recut⟩ :=
      (Accepted.whole parsed).section_recut found
    exact ⟨template, parsed, found, tags, before, inner, after, _,
      by rw [recut, List.length_map]; exact length, split, recut⟩

end Template

end TextTemplate
