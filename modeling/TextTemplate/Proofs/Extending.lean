import TextTemplate.Proofs.FillDepth
import TextTemplate.Proofs.Rearranging

/-!
Which layout a source leaves declared. Outside of its sections a template extends at most one layout, and
that one is declared. The body of a section is read on its own when it is filled in: it may extend a
layout as well, but no session gets to know of that one.
-/
namespace TextTemplate

namespace Template

/-- The layouts that are extended in a template, in the order of its tags; those in section bodies are not among
them. -/
def extended (template : Template) : List String :=
  template.declarations.filterMap Declaration.layout?

theorem layout?_eq (template : Template) : template.layout? = template.extended.getLast? := by
  rw [layout?, extended, ← List.head?_reverse, ← List.filterMap_reverse, List.head?_filterMap]

end Template

/-- The body of a section extends at most one layout. -/
theorem Session.Body.extended {session : Session} {name : String} {body : Template} (reads : session.Body name body) :
    body.extended.length ≤ 1 := by
  obtain ⟨captured, -, parsed⟩ := reads
  exact (Template.parseFrom_spelledAs.mp ⟨body, (Template.Accepted.part parsed).parseFrom, rfl⟩).once.layouts

namespace Compiled

/-- A source that is compiled extends at most one layout outside of its sections, at whatever place, and leaves that one
declared, or the one before it. A section that it fills in may extend one more; nothing comes of that, neither in the
session nor in the code. -/
theorem compile_extended {name source : String} {session after : Session} {compiled : Compiled}
    (compiles : compile name source session = .ok (compiled, after)) :
    ∃ template, Template.parse source name = .ok template ∧
      (template.extended = [] ∧ after.layout = session.layout ∨
        ∃ layout, template.extended = [layout] ∧ after.layout = some layout) ∧
      ∀ n section_ body, after.FillChain template.children n section_ → after.Body section_ body →
        body.extended.length ≤ 1 ∧
          ∀ depth, Filled.ofStmts after depth (Stmt.undeclaredAll body.children) =
            Filled.ofStmts after depth body.children := by
  obtain ⟨template, statements, parsed, -, same⟩ := compile_eq_ok.mp compiles
  obtain ⟨rfl, rfl⟩ := Prod.mk.inj same
  refine ⟨template, parsed, ?_, fun n section_ body chain reads => ⟨reads.extended, fun depth => ?_⟩⟩
  · have once : template.extended.length ≤ 1 := (Template.parse_spelledAs parsed).once.layouts
    rw [Template.layout_declareAll, Template.layout?_eq]
    generalize template.extended = extended at once
    match extended, once with
    | [], _ => exact .inl ⟨rfl, rfl⟩
    | [layout], _ => exact .inr ⟨layout, rfl, rfl⟩
  · exact Filled.ofStmts_undeclared ..

/-- A layout that is extended in a branch. -/
theorem compile_extended_branch :
    let source := Template.tag "if x" ++ Template.tag "else" ++ Template.tag "extends 'L'" ++ Template.tag "endif"
    ∃ compiled after template, compile "page" source { layout := some "other" } = .ok (compiled, after) ∧
      Template.parse source "page" = .ok template ∧ template.extended = ["L"] ∧ after.layout = some "L" := by
  intro source
  obtain ⟨⟨compiled, after⟩, compiles, taken⟩ : ∃ result,
      compile "page" source { layout := some "other" } = .ok result ∧ result.2.layout = some "L" := by
    decide +kernel
  obtain ⟨template, parsed, ⟨-, kept⟩ | ⟨layout, extended, declared⟩, -⟩ := compile_extended compiles
  · exact absurd (kept.symm.trans taken) (by decide)
  · obtain rfl : layout = "L" := Option.some.inj (declared.symm.trans taken)
    exact ⟨_, _, template, compiles, parsed, extended, declared⟩

/-- A section that is filled in extends another layout than its template. -/
theorem compile_extended_section :
    let source := Template.tag "extends 'other'" ++ Template.tag "section 's'" ++ Template.tag "extends 'L'" ++
      Template.tag "endsection" ++ Template.tag "fill 's'"
    ∃ compiled after template body, compile "page" source {} = .ok (compiled, after) ∧
      Template.parse source "page" = .ok template ∧ template.extended = ["other"] ∧
      after.FillChain template.children 1 "s" ∧ after.Body "s" body ∧ body.extended = ["L"] ∧
      after.layout = some "other" := by
  intro source
  let captured : CapturedSection := ⟨"page", ⟨Template.tag "extends 'L'", 1, 34⟩⟩
  obtain ⟨⟨⟨compiled, after⟩, compiles, found, declared⟩, ⟨template, parsed, filled, extended⟩, body, reads, inside⟩ :
      (∃ result, compile "page" source {} = .ok result ∧ result.2.section? "s" = some captured ∧
        result.2.layout = some "other") ∧
      (∃ template, Template.parse source "page" = .ok template ∧ "s" ∈ Stmt.allFills template.children ∧
        template.extended = ["other"]) ∧
      ∃ body, Filled.parsed captured = .ok body ∧ body.extended = ["L"] := by
    decide +kernel
  exact ⟨compiled, after, template, body, compiles, parsed, extended, .last filled found, ⟨captured, found, reads⟩,
    inside, declared⟩

end Compiled

end TextTemplate
