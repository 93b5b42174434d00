import TextTemplate.Proofs.Render.Plain
import TextTemplate.Proofs.Syntax.LiteralTags

/-!
Rendering literals. As the argument of a fallback, a literal is the text that it is written as; in a tag
of its own it is a value. Both give one text, but for a float that is whole: only the value has a point.
-/
namespace TextTemplate

/-- Whether a token is a number with a fraction that is worth nothing. -/
def Token.isWholeFloat : Token → Bool
  | .float x => x.isWhole
  | _ => false

namespace IsLiteral

variable {lit name : String} {token : Token}

/-- The value of a literal is printed as its text, with a point if it is a float that is whole. -/
theorem display (literal : IsLiteral lit token) : ∃ text value, Expr.argumentText token = some text ∧
    Expr.literal? token = some value ∧ value.display = text ++ if token.isWholeFloat then ".0" else "" := by
  cases token with
  | plainString s => exact ⟨s, .str s, rfl, rfl, String.append_empty.symm⟩
  | escapedString s => exact ⟨s, .str s, rfl, rfl, String.append_empty.symm⟩
  | int i => exact ⟨toString i, .int i, rfl, rfl, String.append_empty.symm⟩
  | float x =>
    have positional : NumberStyle.output.positional = none := rfl
    exact ⟨_, .float x, rfl, rfl, NumberStyle.write_wholeEnd positional literal.held⟩
  | _ => cases literal.isText

theorem parse (literal : IsLiteral lit token) {value : Value} (read : Expr.literal? token = some value)
    (template : String) : ∃ parsed e span, Template.parse (Template.tag (" " ++ lit ++ " ")) template = .ok parsed ∧
      parsed.children = [.output e span] ∧ e.bare = (Expr.const value {}).bare := by
  have operand : Expr.Spelled 0 .path (.const value {}) [token] := .literal read
  refine Template.parse_tag literal.whole literal.tokens (operand.loosened (by decide)) (by decide) ?_ template
  rintro keyword - ⟨⟩
  cases literal.isText

/-- A fallback to a literal is a fallback to its text. -/
theorem isFilterTag (literal : IsLiteral lit token) (isWord : Lexer.isWord name = true) (isName : Expr.IsName name)
    (noKeyword : name ∉ Stmt.keywords) {text : String} (read : Expr.argumentText token = some text) :
    IsFilterTag (fallbackTag name lit) name [⟨"default", some text⟩] := by
  obtain ⟨whole, tokens⟩ := literal.tokens_fallbackTag isWord
  exact ⟨isName, noKeyword, whole, _, .argued read .nil, tokens⟩

end IsLiteral

namespace Environment

/-- Where a variable is absent, a fallback to a literal writes what the literal writes in a tag of its own, but for
the point of a float that is whole. -/
theorem renderSource_literal (env : Environment) (context : Value) {name lit : String} {token : Token}
    (isWord : Lexer.isWord name = true) (isName : Expr.IsName name) (noKeyword : name ∉ Stmt.keywords)
    (absent : ((env.rootOf context).member name).isAbsent = true) (literal : IsLiteral lit token) :
    ∃ text, Expr.argumentText token = some text ∧
      env.renderSource (fallbackTag name lit) context = .ok text ∧
      env.renderSource (Template.tag (" " ++ lit ++ " ")) context =
        .ok (text ++ if token.isWholeFloat then ".0" else "") := by
  obtain ⟨text, value, read, constant, shown⟩ := literal.display
  refine ⟨text, read, ?_, ?_⟩
  · obtain ⟨template, e, span, parses, children, bare⟩ :=
      (literal.isFilterTag isWord isName noKeyword read).parse sourceName
    have falls : (Expr.piped (.var name {}) [⟨"default", some text⟩]).evaluate env (env.rootOf context) =
        .ok (.str text) := by
      show Except.ok (Filter.fallback ((env.rootOf context).member name) (some (.str text))) = _
      rw [Filter.fallback, if_pos absent]
    exact renderSource_output parses children bare falls
  · obtain ⟨template, e, span, parses, children, bare⟩ := literal.parse constant sourceName
    rw [← shown]
    exact renderSource_output parses children bare rfl

/-- A string with an escape. -/
theorem renderSource_literal_escaped :
    ({} : Environment).renderSource (fallbackTag "x" "'it\\'s'") (.map []) = .ok "it's" ∧
      ({} : Environment).renderSource (Template.tag (" " ++ "'it\\'s'" ++ " ")) (.map []) = .ok "it's" := by
  have isWord : Lexer.isWord "x" = true := by decide +kernel
  have isName : Expr.IsName "x" := ⟨rfl, by decide +kernel⟩
  have literal : IsLiteral "'it\\'s'" (.escapedString "it's") :=
    ⟨rfl, by decide +kernel, by decide +kernel⟩
  obtain ⟨_, ⟨⟩, falls, own⟩ :=
    renderSource_literal {} (.map []) isWord isName (by decide +kernel) rfl literal
  exact ⟨falls, own⟩

/-- A float that is whole has a point only in a tag of its own. -/
theorem renderSource_literal_whole :
    ({} : Environment).renderSource (fallbackTag "x" "0.0") (.map []) = .ok "0" ∧
      ({} : Environment).renderSource (Template.tag (" " ++ "0.0" ++ " ")) (.map []) = .ok "0.0" :=
  ⟨eq_ok_of_toOption (by decide +kernel), eq_ok_of_toOption (by decide +kernel)⟩

end Environment

end TextTemplate
