import TextTemplate.Proofs.Syntax.Invariants

/-!
The places that readers name. An expression starts where one of its tokens does, and a reader that fails names
a line on which a token ends.
-/
namespace TextTemplate

open Parse

/-- The spans of the tokens that are still to be read, and of the last one that was taken, are of a kind. -/
structure Pending.Bears (P : Span → Prop) (pending : Pending) : Prop where
  last : P pending.last
  ahead : ∀ lexeme ∈ pending.tokens, P lexeme.span

/-- As long as the spans of tokens are of a kind, failures name lines on which such a span ends. -/
def Invariant.spans (P : Span → Prop) : Invariant where
  Holds := Pending.Bears P
  OfSpan := P
  OfMisread misread := ∃ span, P span ∧ misread.line = span.stop.line
  last bears := bears.last
  next bears front := bears.ahead _ (by rw [front]; exact List.mem_cons_self)
  behind bears front := {
    last := bears.ahead _ (by rw [front]; exact List.mem_cons_self)
    ahead other found := bears.ahead other (by rw [front]; exact List.mem_cons_of_mem _ found) }
  noted bears _ _ := ⟨bears.last, bears.ahead⟩
  misread bears _ := ⟨_, bears.last, rfl⟩
  ended bears _ _ := ⟨_, bears.last, rfl⟩

/-- What is read from some tokens starts where one of them does. -/
theorem Expr.start_of_reads {levels : Nat} {expr : Expr} {taken : List Lexeme}
    (reads : (parse levels).Reads expr taken) : ∃ lexeme ∈ taken, expr.span.start = lexeme.span.start := by
  obtain ⟨some, -⟩ := reads.inner (parse_local levels)
  let first := taken.head some
  -- behind them stands nothing but a token whose span is one of theirs
  let start : Pending := { tokens := taken ++ [⟨.tagEnd, first.span⟩], problem := none, last := first.span }
  have holds : (Invariant.spans fun span => ∃ lexeme ∈ taken, lexeme.span = span).Holds start := by
    refine ⟨⟨first, List.head_mem some, rfl⟩, fun lexeme found => ?_⟩
    rcases List.mem_append.mp found with found | last
    · exact ⟨lexeme, found, rfl⟩
    · obtain rfl := List.mem_singleton.mp last
      exact ⟨first, List.head_mem some, rfl⟩
  have kept := parse_keeps levels holds
  rw [reads.run (parse_local levels) rfl Token.closes_tagEnd] at kept
  obtain ⟨-, span, ⟨lexeme, found, rfl⟩, same⟩ := kept
  exact ⟨lexeme, found, same⟩

end TextTemplate
