import TextTemplate.Proofs.Syntax.Segments

/-!
Quoted texts inside of a tag. A text between quotes, with a backslash in front of quotes and backslashes,
is cut as one token that stands for the text, in whichever way it is written. Quoting pairs no braces that
were apart.
-/
namespace TextTemplate

namespace Lexer

variable {quote c d : Char} {cs text written behind : List Char}

/-- How a text is written between quotes: a quote or a backslash behind a backslash, a line feed, a carriage
return or a tab as it is or by its letter, and any other character as it is. -/
inductive Quoted (quote : Char) : (text written : List Char) → Prop where
  | nil : Quoted quote [] []
  | plain {c : Char} {text written : List Char} : c ≠ quote → c ≠ '\\' → Quoted quote text written →
    Quoted quote (c :: text) (c :: written)
  | special {c : Char} {text written : List Char} : c = quote ∨ c = '\\' → Quoted quote text written →
    Quoted quote (c :: text) ('\\' :: c :: written)
  | control {c letter : Char} {text written : List Char} : (c, letter) ∈ [('\n', 'n'), ('\r', 'r'), ('\t', 't')] →
    Quoted quote text written → Quoted quote (c :: text) ('\\' :: letter :: written)

/-- The characters of a text as they stand between single quotes. -/
def escaped (cs : List Char) : List Char :=
  cs.flatMap fun c => if c = '\x27' ∨ c = '\\' then ['\\', c] else [c]

theorem escaped_cons_special (special : c = '\x27' ∨ c = '\\') (cs : List Char) :
    escaped (c :: cs) = '\\' :: c :: escaped cs := by
  rw [escaped, List.flatMap_cons, if_pos special]
  rfl

theorem escaped_cons_plain (plain : ¬(c = '\x27' ∨ c = '\\')) (cs : List Char) :
    escaped (c :: cs) = c :: escaped cs := by
  rw [escaped, List.flatMap_cons, if_neg plain]
  rfl

/-- Quotes and backslashes behind backslashes are one way to write a text between single quotes. -/
theorem quoted_escaped (cs : List Char) : Quoted '\x27' cs (escaped cs) := by
  induction cs with
  | nil => exact .nil
  | cons c cs ih =>
    by_cases special : c = '\x27' ∨ c = '\\'
    · rw [escaped_cons_special special]
      exact .special special ih
    · rw [escaped_cons_plain special]
      obtain ⟨inner, solid⟩ := not_or.mp special
      exact .plain inner solid ih

section Strings

theorem stringBody?_quote (cs : List Char) : stringBody? quote (quote :: cs) = some [] := by
  cases cs <;> rw [stringBody?, if_pos rfl]

theorem stringBody?_backslash (other : quote ≠ '\\') (c : Char) (cs : List Char) :
    stringBody? quote ('\\' :: c :: cs) = (stringBody? quote cs).map fun body => '\\' :: c :: body := by
  rw [stringBody?, if_neg other.symm, if_pos rfl]

theorem stringBody?_cons (other : c ≠ quote) (plain : c ≠ '\\') (cs : List Char) :
    stringBody? quote (c :: cs) = (stringBody? quote cs).map (c :: ·) := by
  cases cs with
  | nil => simp [stringBody?, other]
  | cons d cs => rw [stringBody?, if_neg other, if_neg plain]

theorem unescape?_backslash (d : Char) (cs : List Char) :
    unescape? ('\\' :: d :: cs) = (escapedChar? d).bind fun e => (unescape? cs).map (e :: ·) := by
  rw [unescape?, if_pos rfl]
  cases escapedChar? d with
  | none => rfl
  | some e => cases unescape? cs <;> rfl

theorem unescape?_cons (plain : c ≠ '\\') (cs : List Char) : unescape? (c :: cs) = (unescape? cs).map (c :: ·) := by
  cases cs with
  | nil => simp [unescape?, plain]
  | cons d cs => rw [unescape?, if_neg plain]

/-- A quoted text ends at the quote that closes it. -/
theorem stringBody?_quoted (quoted : Quoted quote text written) (other : quote ≠ '\\') (behind : List Char) :
    stringBody? quote (written ++ quote :: behind) = some written := by
  induction quoted with
  | nil => exact stringBody?_quote behind
  | plain inner solid _ ih =>
    rw [List.cons_append, stringBody?_cons inner solid, ih]
    rfl
  | special _ _ ih | control _ _ ih =>
    rw [List.cons_append, List.cons_append, stringBody?_backslash other, ih]
    rfl

/-- What was quoted is read back. -/
theorem unescape?_quoted (quoted : Quoted quote text written) (isQuote : quote = '\x27' ∨ quote = '"') :
    unescape? written = some text := by
  induction quoted with
  | nil => rfl
  | plain _ solid _ ih =>
    rw [unescape?_cons solid, ih]
    rfl
  | special listed _ ih =>
    rw [unescape?_backslash, ih]
    rcases listed with rfl | rfl
    · rcases isQuote with rfl | rfl <;> rfl
    · rfl
  | control listed _ ih =>
    rw [unescape?_backslash, ih]
    simp only [List.mem_cons, Prod.mk.injEq, List.not_mem_nil, or_false] at listed
    rcases listed with ⟨rfl, rfl⟩ | ⟨rfl, rfl⟩ | ⟨rfl, rfl⟩ <;> rfl

theorem Quoted.eq_of_plain (quoted : Quoted quote text written) (solid : '\\' ∉ written) : written = text := by
  induction quoted with
  | nil => rfl
  | plain _ _ _ ih => rw [ih fun found => solid (List.mem_cons_of_mem _ found)]
  | special | control => exact absurd List.mem_cons_self solid

end Strings

/-- The token of a quoted text, which tells whether it was written with a backslash. -/
def quotedToken (text written : List Char) : Token :=
  if '\\' ∈ written then .escapedString (String.ofList text) else .plainString (String.ofList text)

theorem argumentText_quotedToken (text written : List Char) :
    Expr.argumentText (quotedToken text written) = some (String.ofList text) := by
  unfold quotedToken
  split <;> rfl

section Pieces

theorem stringToken_quoted (quoted : Quoted quote text written) (isQuote : quote = '\x27' ∨ quote = '"') :
    stringToken written = .ok (quotedToken text written) := by
  unfold stringToken quotedToken
  by_cases escapes : '\\' ∈ written
  · rw [if_pos (List.contains_iff_mem.mpr escapes), if_pos escapes, unescape?_quoted quoted isQuote]
  · rw [if_neg (mt List.contains_iff_mem.mp escapes), if_neg escapes, quoted.eq_of_plain escapes]

theorem tagPiece_quoted (quoted : Quoted quote text written) (isQuote : quote = '\x27' ∨ quote = '"')
    (behind : List Char) :
    tagPiece quote (written ++ quote :: behind) = ⟨.ok (quotedToken text written), written.length + 2⟩ := by
  have other : quote ≠ '\\' := by rcases isQuote with rfl | rfl <;> decide
  rw [tagPiece_quote isQuote, stringBody?_quoted quoted other behind]
  dsimp only
  rw [stringToken_quoted quoted isQuote]

theorem tagPiece_operator {token : Token} (alone : cs.head?.bind (pairOperator? c) = none)
    (single : singleOperator? c = some token) : tagPiece c cs = ⟨.ok token, 1⟩ := by
  unfold tagPiece
  rw [alone]
  dsimp only
  rw [single]

end Pieces

section Pairs

theorem pairIndex?_cons_eq_none :
    pairIndex? c (d :: cs) = none ↔ ¬(d = c ∧ cs.head? = some c) ∧ pairIndex? c cs = none := by
  cases cs with
  | nil => simp [pairIndex?]
  | cons e cs =>
    rw [pairIndex?]
    split <;> simp_all

/-- No pair is found if and only if there is none. -/
theorem pairIndex?_eq_none_iff : pairIndex? c cs = none ↔ ¬[c, c] <:+: cs := by
  induction cs with
  | nil => simp [pairIndex?]
  | cons d cs ih =>
    have front : [c, c] <+: d :: cs ↔ d = c ∧ cs.head? = some c := by
      cases cs <;> simp [List.cons_prefix_cons, eq_comm]
    rw [pairIndex?_cons_eq_none, List.infix_cons_iff, ih, front, not_or]

end Pairs

end Lexer

/-- A quoted text is cut as one token, up to the quote behind it. -/
theorem Cursor.cuts_quoted {cursor : Cursor} {quote : Char} {text written behind : List Char}
    (quoted : Lexer.Quoted quote text written) (isQuote : quote = '\x27' ∨ quote = '"') (inTag : cursor.inTag = true)
    (front : cursor.rest = quote :: (written ++ quote :: behind)) :
    cursor.Cuts [Lexer.quotedToken text written] behind := by
  have front : cursor.rest = [] ++ quote :: (written ++ quote :: behind) := front
  have piece := Lexer.tagPiece_quoted quoted isQuote behind
  have solid : Text.isTagSpace quote = false := by rcases isQuote with rfl | rfl <;> rfl
  have goesOn : quote ≠ '\x7d' := by rcases isQuote with rfl | rfl <;> decide
  have cut := cuts_piece inTag front (by simp) solid goesOn piece
  rwa [List.drop_length_add_append] at cut

end TextTemplate
