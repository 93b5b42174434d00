import TextTemplate.Proofs.Render.Plain
import TextTemplate.Proofs.Syntax.Literals
import TextTemplate.Proofs.Syntax.Paths

/-!
Rendering quoted texts. Between either kind of quotes, a text is cut as one token and written as it is,
whatever it holds: closing braces, the other quote, and backslashes in front of the last quote.
-/
namespace TextTemplate

namespace Lexer

variable {quote : Char} {text written : List Char}

/-- A text that is written as `written`, with its quotes. -/
def withQuotes (quote : Char) (written : List Char) : List Char :=
  quote :: (written ++ [quote])

theorem literal?_quotedToken (text written : List Char) :
    Expr.literal? (quotedToken text written) = some (.str (String.ofList text)) := by
  unfold quotedToken
  split <;> rfl

theorem quotedToken_ne_word (text written : List Char) (name : String) : quotedToken text written ≠ .word name := by
  unfold quotedToken
  split <;> rintro ⟨⟩

/-- A tag around a quoted text is cut into its two ends and one token. -/
theorem tokens_withQuotes (quoted : Quoted quote text written) (isQuote : quote = '\x27' ∨ quote = '"')
    (unopened : ¬['\x7b', '\x7b'] <:+: withQuotes quote written) :
    (Source.lexemes (Template.tag (String.ofList (withQuotes quote written)))).problem = none ∧
      tokensOf (Source.lexemes (Template.tag (String.ofList (withQuotes quote written)))).tokens =
        [.tagStart, quotedToken text written, .tagEnd] := by
  have apart : pairIndex? '\x7b' (String.ofList (withQuotes quote written)).toList = none := by
    rw [String.toList_ofList]
    exact pairIndex?_eq_none_iff.mpr unopened
  obtain ⟨opening, inside, stepped, inTag, front⟩ := Source.start_tag apart
  have front : inside.rest = quote :: (written ++ quote :: ['\x7d', '\x7d']) := by
    rw [front, String.toList_ofList]
    simp [withQuotes]
  exact Source.tokens_of_cuts [] (by simp) stepped (Cursor.cuts_quoted quoted isQuote inTag front)

end Lexer

namespace Environment

/-- A text between quotes is one token, whose text it is, and a tag around it writes the text. -/
theorem renderSource_quoted (env : Environment) (context : Value) {quote : Char} {s : String} {written : List Char}
    (isQuote : quote = '\x27' ∨ quote = '"') (quoted : Lexer.Quoted quote s.toList written)
    (unopened : ¬['\x7b', '\x7b'] <:+: Lexer.withQuotes quote written) :
    let source := Template.tag (String.ofList (Lexer.withQuotes quote written))
    (Source.lexemes source).problem = none ∧
      tokensOf (Source.lexemes source).tokens =
        [.tagStart, if '\\' ∈ written then .escapedString s else .plainString s, .tagEnd] ∧
      env.renderSource source context = .ok s := by
  obtain ⟨whole, cut⟩ := Lexer.tokens_withQuotes quoted isQuote unopened
  have operand : Expr.Spelled 0 .path (.const (.str s) {}) [Lexer.quotedToken s.toList written] :=
    .literal ((Lexer.literal?_quotedToken s.toList written).trans (by rw [String.ofList_toList]))
  have free : ∀ keyword ∈ Stmt.keywords, [Lexer.quotedToken s.toList written].head? ≠ some (.word keyword) :=
    fun keyword _ same => Lexer.quotedToken_ne_word _ _ keyword (Option.some.inj same)
  obtain ⟨template, value, span, parses, children, bare⟩ :=
    Template.parse_tag whole cut (operand.loosened (by decide)) (by decide) free sourceName
  refine ⟨whole, ?_, renderSource_output parses children bare rfl⟩
  rw [cut, Lexer.quotedToken, String.ofList_toList]

/-- Closing braces, the quote itself, a line feed by its letter, and a backslash in front of the last quote. -/
theorem renderSource_quoted_braces :
    let written := "\x7d\x7dé\\\x27\\n\\\\".toList
    let source := Template.tag (String.ofList (Lexer.withQuotes '\x27' written))
    source = "\x7b\x7b\x27\x7d\x7dé\\\x27\\n\\\\\x27\x7d\x7d" ∧
      tokensOf (Source.lexemes source).tokens = [.tagStart, .escapedString "\x7d\x7dé\x27\n\\", .tagEnd] ∧
      ({} : Environment).renderSource source (.map []) = .ok "\x7d\x7dé\x27\n\\" := by
  intro written source
  have quoted : Lexer.Quoted '\x27' "\x7d\x7dé\x27\n\\".toList written := by
    refine .plain (by decide) (by decide) (.plain (by decide) (by decide) (.plain (by decide) (by decide) ?_))
    exact .special (.inl rfl) (.control (by decide) (.special (.inr rfl) .nil))
  have unopened : ¬['\x7b', '\x7b'] <:+: Lexer.withQuotes '\x27' written := by decide +kernel
  obtain ⟨-, tokens, writes⟩ := ({} : Environment).renderSource_quoted (.map []) (.inl rfl) quoted unopened
  exact ⟨by decide +kernel, tokens, writes⟩

end Environment

end TextTemplate
