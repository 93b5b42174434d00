import TextTemplate.Proofs.Render.Plain
import TextTemplate.Proofs.Syntax.Paths

/-!
Rendering dotted paths. What a path in a tag writes is what a look along its segments finds, provided
that no index follows another one; such a path is no template.
-/
namespace TextTemplate

namespace Value

theorem foldl_member_undefined (segments : List String) : segments.foldl member .undefined = .undefined := by
  induction segments with
  | nil => rfl
  | cons segment rest ih => exact ih

/-- Behind an undefined value nothing else is found, so that a look may go on. -/
theorem follow_eq_foldl (v : Value) (segments : List String) : v.follow segments = segments.foldl member v := by
  induction segments generalizing v with
  | nil => rfl
  | cons segment rest ih =>
    rw [follow, List.foldl_cons]
    split
    · rename_i absent
      rw [absent, foldl_member_undefined]
    · exact ih _

end Value

theorem Text.pieces_intercalate {separator : Char} {pieces : List String} (some : pieces ≠ [])
    (free : ∀ piece ∈ pieces, separator ∉ piece.toList) :
    Text.pieces separator ((String.singleton separator).intercalate pieces) = pieces := by
  rw [Text.pieces, String.toList_intercalate, String.toList_singleton, List.splitOn_intercalate]
  · simp
  · simpa using free
  · simpa using some

namespace DottedPath

variable (path : DottedPath)

/-- A path falls into its segments. -/
theorem pieces_text : Text.pieces '.' path.text = path.pieces := by
  refine Text.pieces_intercalate (List.cons_ne_nil _ _) fun piece found dots => ?_
  have word (segment : Segment) (same : segment.text = piece) : False := by
    rw [← same] at dots
    exact absurd (segment.text_wordChars _ dots) (by decide)
  rcases List.mem_cons.mp found with rfl | found
  · exact word (.word path.name path.isWord) rfl
  · obtain ⟨segment, -, same⟩ := List.mem_map.mp found
    exact word segment same

theorem evaluate_expr (env : Environment) (vars : Value) :
    path.expr.evaluate env vars = .ok (vars.resolve path.text) := by
  have goesOn (segments : List Segment) : ∀ (e : Expr) (v : Value), e.evaluate env vars = .ok v →
      (e.members segments).evaluate env vars = .ok ((segments.map Segment.text).foldl Value.member v) := by
    induction segments with
    | nil => exact fun _ _ here => here
    | cons segment rest ih =>
      intro e v here
      refine ih _ _ ?_
      rw [Expr.evaluate, here]
      rfl
  rw [Value.resolve, pieces_text, Value.follow_eq_foldl]
  exact goesOn path.segments _ _ rfl

end DottedPath

namespace Environment

/-- What a dotted path in a tag writes is the text of the value that a look along the path finds, unless an index
follows another one: then nothing is rendered. -/
theorem renderSource_path (env : Environment) (context : Value) (path : DottedPath) :
    if Segment.apart path.segments then
      env.renderSource path.source context = .ok ((env.rootOf context).resolve path.text).display
    else ∃ failure, env.renderSource path.source context = .error failure ∧ failure.kind = .syntaxError := by
  split
  · rename_i split
    obtain ⟨template, value, span, parses, children, bare⟩ := path.parse_apart split sourceName
    exact renderSource_output parses children bare (path.evaluate_expr env (env.rootOf context))
  · rename_i joined
    obtain ⟨fault, unread, kind⟩ := path.parse_joined (by simpa using joined) sourceName
    refine ⟨⟨fault, []⟩, ?_, kind⟩
    rw [renderSource, renderInto, renderAt_unread _ _ _ _ _ _ unread]
    rfl

/-- An item of a list in a list is found, but the tag of its path is no template. -/
theorem renderSource_path_indices :
    let context : Value := .map [("a", .seq [.seq [.int 1, .int 2]])]
    ∃ path : DottedPath, path.text = "a.0.1" ∧ path.source = "\x7b\x7b a.0.1 \x7d\x7d" ∧
      ((({} : Environment).rootOf context).resolve path.text).display = "2" ∧
      ∃ failure, ({} : Environment).renderSource path.source context = .error failure ∧
        failure.kind = .syntaxError := by
  intro context
  let path : DottedPath := ⟨"a", by decide, ⟨by decide, by decide⟩, by decide, [.index 0 (by decide), .index 1 (by decide)]⟩
  obtain ⟨fault, unread, kind⟩ := path.parse_joined rfl sourceName
  refine ⟨path, by decide +kernel, by decide +kernel, by decide +kernel, ⟨fault, []⟩, ?_, kind⟩
  rw [renderSource, renderInto, renderAt_unread _ _ _ _ _ _ unread]
  rfl

end Environment

end TextTemplate
