import TextTemplate.Proofs.Render.Joining
import TextTemplate.Proofs.Syntax.Texts

/-!
Rendering texts between tags. Texts in which no tag starts are written as they are, with the value of a
variable in the place of each tag; only a line end behind the last of them is dropped.
-/
namespace TextTemplate

open String (join)

namespace Stmt

variable {env : Environment} {vars : Value} {first rest : List Stmt} {written more : String}

namespace Yields

theorem nil : Yields env vars [] "" :=
  ⟨rfl, fun _ _ _ _ _ => by rw [evaluateUnfilled, evaluateAll, String.append_empty]⟩

theorem append (one : Yields env vars first written) (two : Yields env vars rest more) :
    Yields env vars (first ++ rest) (written ++ more) := by
  constructor
  case plain => rw [allDeclarations_append, one.plain, two.plain, List.append_nil]
  case writes =>
    intro scene nested before here known
    have writes := one.writes scene nested before here known
    rw [evaluateUnfilled] at writes
    rw [evaluateUnfilled, evaluateAll_append, writes, ← String.append_assoc]
    exact two.writes scene nested (before ++ written) here known

theorem text (raw : String) (span : Span) : Yields env vars [.text raw span] raw :=
  ⟨rfl, fun _ _ _ _ _ => rfl⟩

end Yields

variable {source : List Char} {levels : Nat} {later : List Lexeme}

/-- Tokens of text are read as the text that they are together. -/
theorem Spelled.texts {texts : List (List Char)} {pieces : List Lexeme}
    (tokens : tokensOf pieces = texts.map (.text ∘ String.ofList))
    (spelled : Spelled source levels (.statements rest) later) :
    ∃ front, Spelled source levels (.statements (front ++ rest)) (pieces ++ later) ∧
      Yields env vars front (String.ofList texts.flatten) := by
  induction texts generalizing pieces with
  | nil =>
    obtain rfl := List.map_eq_nil_iff.mp tokens
    exact ⟨[], spelled, .nil⟩
  | cons text texts ih =>
    obtain ⟨⟨_, span⟩, pieces, rfl, rfl, behind⟩ := List.map_eq_cons_iff.mp tokens
    obtain ⟨front, spells, yields⟩ := ih behind
    refine ⟨.text (String.ofList text) span :: front, .text _ span spells, ?_⟩
    rw [List.flatten_cons, String.ofList_append]
    exact (Yields.text (String.ofList text) span).append yields

/-- The tokens of a variable's tag are read as its output. -/
theorem Spelled.output_variable {name : String} (isName : Expr.IsName name) (noKeyword : name ∉ keywords)
    (env : Environment) (vars : Value) (opening word ending : Span)
    (spelled : Spelled source maxSyntaxLevels (.statements rest) later) :
    ∃ output, Spelled source maxSyntaxLevels (.statements (output :: rest))
        (⟨.tagStart, opening⟩ :: ⟨.word name, word⟩ :: ⟨.tagEnd, ending⟩ :: later) ∧
      Yields env vars [output] (vars.member name).display := by
  have operand : Expr.Spelled 0 .path (.var name {}) (tokensOf [⟨.word name, word⟩]) := .name isName
  have free : ∀ first ∈ [(⟨.word name, word⟩ : Lexeme)].head?, ∀ keyword ∈ keywords, first.token ≠ .word keyword := by
    rintro _ ⟨⟩ keyword listed ⟨⟩
    exact noKeyword listed
  obtain ⟨value, bare, spelled⟩ := Spelled.output_cons (operand.loosened (by decide)) (by decide) free spelled
  exact ⟨.output value (opening.upTo ending), spelled, .output _ bare rfl⟩

end Stmt

/-- The tag of a variable. -/
def Template.variableTag (name : String) : String :=
  tag (" " ++ name ++ " ")

open Template (variableTag)

namespace Cursor

variable {name : String}

/-- Texts with the tag of a variable behind each but the last are read as the texts and the values in between. -/
theorem spelled_texts (source : List Char) (env : Environment) (vars : Value) {before : List String}
    {last : List Char} (inert : ∀ text ∈ before, Text.Inert text.toList)
    (inertLast : Text.Inert last) (apart : ∀ text ∈ before, text.toList.getLast? ≠ some '\x7b')
    (isWord : Lexer.isWord name = true) (isName : Expr.IsName name) (noKeyword : name ∉ Stmt.keywords)
    {cursor : Cursor} (outside : cursor.inTag = false)
    (front : cursor.rest = (join (before.map (· ++ variableTag name))).toList ++ last) :
    cursor.lexemes.problem = none ∧
      ∃ stmts, Stmt.Spelled source maxSyntaxLevels (.statements stmts) cursor.lexemes.tokens ∧
        Stmt.Yields env vars stmts
          (join (before.map (· ++ (vars.member name).display)) ++ String.ofList last) := by
  induction before generalizing cursor with
  | nil =>
    have front : cursor.rest = last ++ [] := front.trans (List.append_nil last).symm
    obtain ⟨pieces, next, texts, lexes, outside, nothing, tokens, rfl⟩ := lexes_text inertLast (.inl rfl) outside front
    rw [lexes.lexemes, lexemes_end outside nothing]
    obtain ⟨front, spelled, yields⟩ := Stmt.Spelled.texts tokens .done
    exact ⟨rfl, front ++ [], spelled, by simpa [join] using yields⟩
  | cons text before ih =>
    obtain ⟨inertText, inert⟩ := List.forall_mem_cons.mp inert
    obtain ⟨apartText, apart⟩ := List.forall_mem_cons.mp apart
    have front : cursor.rest =
        text.toList ++ ((variableTag name).toList ++ ((join (before.map (· ++ variableTag name))).toList ++ last)) := by
      rw [front, List.map_cons, String.join_cons]
      simp
    have ends : Text.EndsAt text.toList
        ((variableTag name).toList ++ ((join (before.map (· ++ variableTag name))).toList ++ last)) := by
      refine .inr ⟨apartText, ?_⟩
      simp [variableTag, Template.tag]
    obtain ⟨pieces, next, texts, lexes, outside, rest, tokens, same⟩ := lexes_text inertText ends outside front
    obtain ⟨opening, word, ending, behind, tag, outside, rest⟩ := lexes_variable isWord outside rest
    obtain ⟨whole, stmts, spelled, yields⟩ := ih inert apart outside rest
    obtain ⟨output, spelled, yieldsOutput⟩ :=
      Stmt.Spelled.output_variable isName noKeyword env vars opening word ending spelled
    obtain ⟨front, spelled, yieldsText⟩ := Stmt.Spelled.texts tokens spelled
    rw [lexes.lexemes, tag.lexemes]
    refine ⟨whole, _, spelled, ?_⟩
    rw [same, String.ofList_toList] at yieldsText
    rw [List.map_cons, String.join_cons, String.append_assoc, String.append_assoc]
    exact yieldsText.append (yieldsOutput.append yields)

end Cursor

namespace Environment

/-- Behind a tag, the line end that is dropped is the one of the text behind it. -/
theorem dropLineEnd_tags (before : List String) (name : String) (last : List Char) :
    Text.dropLineEnd ((join (before.map (· ++ variableTag name))).toList ++ last) =
      (join (before.map (· ++ variableTag name))).toList ++ Text.dropLineEnd last := by
  rcases List.eq_nil_or_concat' before with rfl | ⟨before, text, rfl⟩
  · rfl
  · have ending : (join ((before ++ [text]).map (· ++ variableTag name))).toList =
        (join (before.map (· ++ variableTag name)) ++ text ++ "\x7b\x7b " ++ name ++ " \x7d").toList ++ ['\x7d'] := by
      simp [variableTag, Template.tag]
    rw [ending]
    exact Text.dropLineEnd_append (by decide) (by decide) last

/-- Texts in which no tag starts are written as they are, stray braces included, and each tag between them as the
value of its variable; of the last text, one line end is dropped. -/
theorem renderSource_texts (env : Environment) (context : Value) {before : List String} {last : String}
    (inert : ∀ text ∈ before ++ [last], Text.Inert text.toList)
    (apart : ∀ text ∈ before, text.toList.getLast? ≠ some '\x7b') :
    ∃ kept : String,
      (last = kept ++ "\r\n" ∨ last = kept ++ "\n" ∧ kept.toList.getLast? ≠ some '\r' ∨
        last = kept ∧ last.toList.getLast? ≠ some '\n') ∧
      env.renderSource (join (before.map (· ++ "\x7b\x7b x \x7d\x7d")) ++ last) context =
        .ok (join (before.map (· ++ ((env.rootOf context).member "x").display)) ++ kept) := by
  let root := env.rootOf context
  let source := join (before.map (· ++ variableTag "x")) ++ last
  let kept := Text.dropLineEnd last.toList
  have dropped : last.toList = kept ++ ['\r', '\n'] ∨ last.toList = kept ++ ['\n'] ∧ kept.getLast? ≠ some '\r' ∨
      last.toList = kept ∧ last.toList.getLast? ≠ some '\n' := Text.dropLineEnd_cases last.toList
  refine ⟨String.ofList kept, ?_, ?_⟩
  · simp only [← String.toList_inj, String.toList_append, String.toList_ofList]
    exact dropped
  · obtain ⟨inert, inertLast⟩ := List.forall_mem_append.mp inert
    have inertLast : Text.Inert last.toList := inertLast last (List.mem_singleton_self last)
    have prefixed : kept <+: last.toList := by
      rcases dropped with same | ⟨same, -⟩ | ⟨same, -⟩
      · exact ⟨_, same.symm⟩
      · exact ⟨_, same.symm⟩
      · exact ⟨[], by rw [List.append_nil, same]⟩
    have front : (Source.start source).rest = (join (before.map (· ++ variableTag "x"))).toList ++ kept := by
      rw [Source.start, String.toList_append]
      exact dropLineEnd_tags before "x" last.toList
    obtain ⟨whole, stmts, spelled, yields⟩ :=
      Cursor.spelled_texts source.toList env root inert (inertLast.of_infix prefixed.isInfix) apart (by decide)
        ⟨rfl, by decide⟩ (by decide) rfl front
    have once : Stmt.DeclaresOnce stmts := by
      constructor <;> simp [yields.plain]
    obtain ⟨template, parsed, rfl⟩ := Template.parseFrom_spelledAs.mpr ⟨whole, spelled, once⟩
    have parses : Template.parse source sourceName = .ok template := by
      rw [Template.parse, parsed]
    exact yields.renderSource parses

/-- Openers in front of a tag and at the end, closers behind one, an empty text, and a line end that is dropped. -/
theorem renderSource_texts_stray :
    ({} : Environment).renderSource
        "\x7b\x7b\x7b a\x7b\x7b x \x7d\x7d\x7b\x7b x \x7d\x7d\x7d\x7d\x7d\x7b\x7b x \x7d\x7d\x7d\x7b é\x7b\x7b\r\n"
        (.map [("x", .str "X")]) =
      .ok "\x7b\x7b\x7b aXX\x7d\x7d\x7dX\x7d\x7b é\x7b\x7b" := by
  let context : Value := .map [("x", .str "X")]
  let before := ["\x7b\x7b\x7b a", "", "\x7d\x7d\x7d"]
  let last := "\x7d\x7b é\x7b\x7b\r\n"
  have inert : ∀ text ∈ before ++ [last], Text.Inert text.toList := by decide +kernel
  have apart : ∀ text ∈ before, text.toList.getLast? ≠ some '\x7b' := by decide +kernel
  obtain ⟨kept, dropped, writes⟩ := ({} : Environment).renderSource_texts context inert apart
  obtain rfl : kept = "\x7d\x7b é\x7b\x7b" := by
    rcases dropped with same | ⟨same, unreturned⟩ | ⟨-, unended⟩
    · exact (String.append_left_inj "\r\n").mp same.symm
    · obtain rfl : kept = "\x7d\x7b é\x7b\x7b\r" := (String.append_left_inj "\n").mp same.symm
      exact absurd (by decide +kernel) unreturned
    · exact absurd (by decide +kernel) unended
  exact writes

end Environment

end TextTemplate
