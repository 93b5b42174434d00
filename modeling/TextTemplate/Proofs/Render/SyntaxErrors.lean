import TextTemplate.Proofs.Code.Raising
import TextTemplate.Proofs.Render.Excerpts
import TextTemplate.Proofs.Render.Explained

/-!
Where syntax errors are. What cannot be read, in a template or in a section that fills it, is on a line of
the text that it stands in. A section that is filled too deeply is found when nothing is read any more, so that
its error names the template that is compiled but no line of it.
-/
namespace TextTemplate

/-- The line that a syntax error names: a line of the source, unless a section fills itself. -/
structure Problem.Lined (problem : Problem) (source : String) (line : Nat) : Prop where
  here : (∀ section_, problem ≠ .endlessFill section_) → Source.HasLine source line
  nowhere : ∀ section_, problem = .endlessFill section_ → line = 0

/-- A fault names a template and a line of its text, which is among those that are known. -/
def Fault.Located (fault : Fault) (sources : String → String → Prop) : Prop :=
  ∃ name line text, fault.place = some ⟨name, line⟩ ∧ sources name text ∧ fault.problem.Lined text line

theorem Fault.Located.mono {fault : Fault} {sources others : String → String → Prop} (located : fault.Located sources)
    (more : ∀ {name text}, sources name text → others name text) : fault.Located others := by
  obtain ⟨name, line, text, place, known, lined⟩ := located
  exact ⟨name, line, text, place, more known, lined⟩

namespace Template

variable {text name : String} {fault : Fault}

theorem located_of_parse (fails : parse text name = .error fault) :
    fault.Located fun template source => template = name ∧ source = text := by
  obtain ⟨line, place, -, has⟩ := parse_error fails
  unfold parse at fails
  split at fails
  · cases fails
  · obtain rfl := Except.error.inj fails
    exact ⟨name, line, text, place, ⟨rfl, rfl⟩, fun _ => has, nofun⟩

/-- The body of a section starts behind a tag and has the tokens that stand there, so that what cannot be read in it
is on a line of the template that declares it. -/
theorem parsePart_error {template : Template} {section_ origin : String} {body : SectionBody}
    (parses : parse text name = .ok template) (declared : .capture section_ body ∈ template.declarations)
    (fails : parsePart body.text origin body.line body.column = .error fault) :
    ∃ line, fault.place = some ⟨origin, line⟩ ∧ fault.problem.Lined text line := by
  have accepted := Accepted.whole parses
  obtain ⟨tags, inner, ⟨before, after, split⟩, -, -, rfl⟩ := accepted.written.captures declared {}
  obtain ⟨front, -, -, -, -, -, tokens⟩ := accepted.cut split.symm
  have hasLine : ∀ lexeme ∈ tags.first ++ inner ++ tags.last, Source.HasLine text lexeme.span.stop.line := by
    intro lexeme found
    refine Source.hasLine_of_token ?_
    rw [show (Source.start text).lexemes.tokens = _ from split.symm]
    exact List.mem_append_left after (List.mem_append_right before found)
  unfold parsePart at fails
  split at fails
  · cases fails
  · rename_i misread unread
    obtain rfl := Except.error.inj fails
    refine ⟨misread.line, rfl, fun _ => parseFrom_error ?_ (fun lexeme found => ?_) unread, nofun⟩
    · exact hasLine ⟨.tagEnd, tags.tagEnd⟩ (by simp [SectionTags.first])
    · have moved : lexeme.moved (String.utf8Len front) ∈ inner := tokens ▸ List.mem_map_of_mem found
      exact hasLine (lexeme.moved _) (List.mem_append_left _ (List.mem_append_right _ moved))

end Template

namespace Compiled

variable {name text : String} {session : Session} {fault : Fault} {texts : String → String → Prop}

/-- What cannot be compiled is located in the template or in the one that declares the section. -/
theorem located_of_compile (from_ : session.CapturedFrom texts) (fails : compile name text session = .error fault) :
    fault.Located fun template source => texts template source ∨ template = name ∧ source = text := by
  obtain unread | ⟨template, parses, rest⟩ := bind_eq_error.mp fails
  · exact (Template.located_of_parse unread).mono .inr
  let known (template source : String) : Prop := texts template source ∨ template = name ∧ source = text
  have captured : (Stmt.declareAll name session template.children).CapturedFrom known :=
    (from_.mono .inl).declareAll (.inr ⟨rfl, rfl⟩) parses
  dsimp only at rest
  split at rest
  · rename_i cause unfilled
    obtain rfl := Except.error.inj rest
    refine Filled.ofStmts_error_of (P := fun fault => (fault.placedAt ⟨name, 0⟩).Located known)
      (fun section_ part fault found unread => ?_) (fun section_ => ?_) unfilled
    · obtain ⟨source, template, known, parses, declared⟩ := captured section_ part found
      obtain ⟨line, place, lined⟩ := Template.parsePart_error parses declared unread
      have placed : fault.placedAt ⟨name, 0⟩ = fault := by
        rw [Fault.placedAt, place]
        rfl
      rw [placed]
      exact ⟨part.origin, line, source, place, known, lined⟩
    · exact ⟨name, 0, text, rfl, .inr ⟨rfl, rfl⟩, fun other => absurd rfl (other section_), fun _ _ => rfl⟩
  · cases rest

end Compiled

/-- If a section fills itself, the failure names the line 0. -/
def Failure.Unlined (failure : Failure) : Prop :=
  ∀ section_, failure.fault.problem = .endlessFill section_ → ∃ name, failure.fault.place = some ⟨name, 0⟩

theorem Fault.Located.unlined {fault : Fault} {sources : String → String → Prop} (located : fault.Located sources)
    {section_ : String} (endless : fault.problem = .endlessFill section_) : ∃ name, fault.place = some ⟨name, 0⟩ := by
  obtain ⟨name, line, text, place, -, lined⟩ := located
  exact ⟨name, lined.nowhere section_ endless ▸ place⟩

namespace Machine

variable {scene : Scene} {nested : Nested} {pc : Nat} {stack : List Value} {sink : Sink} {failure : Failure}

theorem located_place {place : Place} (placed : failure.fault.place = some place) :
    (located scene pc failure).fault.place = some place := by
  simp only [located, placed, Option.isSome_some, if_true]
  split
  · unfold Fault.withListing
    split
    · exact placed
    · exact placed
  · exact placed

theorem located_unlined (unlined : failure.Unlined) : (located scene pc failure).Unlined := by
  intro section_ endless
  obtain ⟨name, place⟩ := unlined section_ ((located_alike scene pc failure).problem.symm.trans endless)
  exact ⟨name, located_place place⟩

/-- What a run fails with on its own is no error of the syntax, and what another template failed with is located
already. -/
theorem run_unlined
    (answers : ∀ (call : Call) (failure : Failure), (call.answer scene nested).result = .error failure →
      failure.Unlined)
    (fails : (run scene nested pc stack sink).result = .error failure) : failure.Unlined := by
  obtain ⟨at_, raised⟩ := run_raised fails
  cases raised with
  | output =>
    intro section_ endless
    cases endless
  | @own problem ofCode =>
    refine located_unlined fun section_ endless => ?_
    obtain rfl : problem = .endlessFill section_ := endless
    cases ofCode
  | answer failed => exact located_unlined (answers _ _ failed)

end Machine

namespace Environment

variable {env : Environment} {root : Value} {levels : Nat} {request : Request} {failure : Failure}
  {texts sources : String → String → Prop}

theorem FailsOutside.located (fails : FailsOutside env root levels request failure)
    (from_ : request.session.CapturedFrom texts) (syntactic : failure.kind = .syntaxError) :
    failure.fault.Located fun name text => texts name text ∨ Compiles env root levels request name text := by
  cases fails with
  | cycle | tooDeep | unwritten => cases syntactic
  | @unloaded _ _ _ given _ _ _ unread =>
    cases given with
    | some text => cases unread
    | none =>
      obtain ⟨path, siblings, rfl⟩ | ⟨path, problem, rfl⟩ := load_error unread
      · cases syntactic
      · cases syntactic
  | uncompiled content fresh loads uncompiled =>
    refine (Compiled.located_of_compile (capturedFrom_of_content content from_) uncompiled).mono fun known => ?_
    obtain known | ⟨rfl, rfl⟩ := known
    · exact known
    · exact .inr (.here content fresh loads)

theorem unlined_of_outcome (bare : request.session.layout = none) (from_ : request.session.CapturedFrom texts)
    (fails : (request.outcome env levels root).result = .error failure) : failure.Unlined := by
  induction levels generalizing request failure texts with
  | zero =>
    intro section_ endless
    have syntactic : failure.kind = .syntaxError := congrArg Problem.kind endless
    exact ((outside_of_no_levels bare fails).located from_ syntactic).unlined endless
  | succ levels ih =>
    obtain outside | ⟨chain, link, given, statements, content, opens, failed⟩ := outside_or_evaluated bare fails
    · intro section_ endless
      have syntactic : failure.kind = .syntaxError := congrArg Problem.kind endless
      exact (outside.located from_ syntactic).unlined endless
    · have runs := Runs.intro content opens
      refine Machine.run_unlined (fun call cause answers => ?_) failed
      have inner : ((Request.ofCall (Chain.sessionOf request.session (chain ++ [link])) call).outcome env levels
        root).result = .error cause := answers
      exact ih rfl (runs.capturedFrom from_).fork inner

/-- A syntax error of a render is located in a text that it compiles, or that a section was captured from before. -/
theorem located_of_outcome (bare : request.session.layout = none) (from_ : request.session.CapturedFrom texts)
    (fails : (request.outcome env levels root).result = .error failure) (syntactic : failure.kind = .syntaxError) :
    failure.fault.Located fun name text => texts name text ∨ Compiles env root levels request name text := by
  induction levels generalizing request failure texts with
  | zero => exact (outside_of_no_levels bare fails).located from_ syntactic
  | succ levels ih =>
    have unlined := unlined_of_outcome bare from_ fails
    obtain outside | ⟨link, scene, culprit, cause, stops, rfl⟩ := outside_or_stops bare fails
    · exact outside.located from_ syntactic
    replace syntactic : cause.kind = .syntaxError := by
      rwa [Failure.kind, Fault.kind, Scene.report_problem] at syntactic
    obtain ⟨-, problem, rfl⟩ | ⟨call, there, failed⟩ := stops.explains
    · obtain ⟨text, known, here⟩ := stops.at from_
      obtain ⟨listing, reported⟩ := stops.report_unplaced rfl
      rw [reported] at unlined ⊢
      refine ⟨_, _, text, rfl, known, fun _ => here.hasLine, fun section_ endless => ?_⟩
      obtain ⟨name, place⟩ := unlined section_ endless
      exact congrArg Place.line (Option.some.inj place)
    · obtain ⟨name, line, text, place, known, lined⟩ := ih rfl (stops.runs.capturedFrom from_).fork failed syntactic
      obtain ⟨listing, reported⟩ := scene.report_placed place
      rw [reported]
      refine ⟨name, line, text, place, ?_, lined⟩
      obtain (outside | before) | inner := known
      · exact .inl outside
      · exact .inr before
      · exact .inr (.inside stops there inner)

theorem FailsOver.located (fails : env.FailsOver failure sources) (syntactic : failure.kind = .syntaxError) :
    failure.fault.Located sources := by
  have nothing : Session.CapturedFrom (fun _ _ => False) {} := nofun
  cases fails.ends with
  | loading unread =>
    obtain ⟨path, siblings, rfl⟩ | ⟨path, problem, rfl⟩ := load_error unread
    · cases syntactic
    · cases syntactic
  | compiling known uncompiled same =>
    subst same
    refine (Compiled.located_of_compile nothing uncompiled).mono fun here => ?_
    obtain ⟨rfl, rfl⟩ := here.resolve_left id
    exact known
  | @running root request same fresh failed =>
    have bare : request.session.layout = none := by rw [fresh]
    subst same
    exact (located_of_outcome bare (fresh ▸ nothing) failed syntactic).mono fun known => known.resolve_left id
  | writing same =>
    subst same
    cases syntactic

/-- Syntax errors have a usable location. Every syntax error of a compilation or a render, in the template itself, in
a layout, in a template that is rendered for an item or in a section that fills one of these, names a template that
is compiled there and a line of its text, except that a section that is filled too deeply is found at the line 0. -/
theorem syntaxErrors_located (fails : env.FailsOver failure sources) (syntactic : failure.kind = .syntaxError) :
    ∃ name line text, failure.fault.place = some ⟨name, line⟩ ∧ sources name text ∧
      ((∀ section_, failure.fault.problem ≠ .endlessFill section_) →
        1 ≤ line ∧ line ≤ (Text.lines text.toList).length) ∧
      ∀ section_, failure.fault.problem = .endlessFill section_ → line = 0 := by
  obtain ⟨name, line, text, place, known, lined⟩ := fails.located syntactic
  exact ⟨name, line, text, place, known, lined.here, lined.nowhere⟩

/-- A stray parenthesis on the third line of a page, in a section that fills its layout for an item. -/
theorem syntaxErrors_located_section :
    let layout := "\n\n" ++ Template.tag "fill 'body'"
    let page := Template.tag "extends 'layout'" ++ "\n" ++ Template.tag "section 'body'" ++ "\n" ++ Template.tag ")" ++
      Template.tag "endsection"
    let env := ((({} : Environment).addTemplate "layout" layout).addTemplate "page" page).addTemplate "list"
      (Template.tag "each item in items using 'page'")
    let context : Value := .map [("items", .seq [.int 1])]
    let request : Request := ⟨none, "list", env.rootOf context, {}, .text ""⟩
    ∃ failure text, env.render "list" context = .error failure ∧ failure.kind = .syntaxError ∧
      failure.fault.place = some ⟨"page", 3⟩ ∧ Compiles env request.vars (maxRenderDepth + 1) request "page" text ∧
      3 ≤ (Text.lines text.toList).length := by
  intro layout page env context request
  obtain ⟨failure, failed, problem, place⟩ : ∃ failure, env.render "list" context = .error failure ∧
      failure.fault.problem = .ofSyntax (.unexpected "`)`" "expression") ∧ failure.fault.place = some ⟨"page", 3⟩ := by
    decide +kernel
  have syntactic : failure.kind = .syntaxError := congrArg Problem.kind problem
  obtain ⟨name, line, text, named, compiles, has, -⟩ := syntaxErrors_located (.render failed) syntactic
  obtain ⟨rfl, rfl⟩ := Place.mk.inj (Option.some.inj (place.symm.trans named))
  have within := has fun section_ endless => nomatch problem.symm.trans endless
  exact ⟨failure, text, failed, syntactic, place, compiles, within.2⟩

/-- A section that fills itself: the error names the line 0, which no text has. -/
theorem syntaxErrors_located_loop :
    let text := Template.tag "section 'a'" ++ Template.tag "fill 'a'" ++ Template.tag "endsection" ++
      Template.tag "fill 'a'"
    ∃ failure, ({} : Environment).compileSource text = .error failure ∧ failure.kind = .syntaxError ∧
      failure.fault.problem = .endlessFill "a" ∧ failure.fault.place = some ⟨sourceName, 0⟩ ∧
      ¬∃ name line, failure.fault.place = some ⟨name, line⟩ ∧ 1 ≤ line ∧ line ≤ (Text.lines text.toList).length := by
  intro text
  obtain ⟨failure, fails, syntactic, problem, place⟩ : ∃ failure,
      ({} : Environment).compileSource text = .error failure ∧ failure.kind = .syntaxError ∧
        failure.fault.problem = .endlessFill "a" ∧ failure.fault.place = some ⟨sourceName, 0⟩ := by
    decide +kernel
  refine ⟨failure, fails, syntactic, problem, place, ?_⟩
  rintro ⟨name, line, named, positive, -⟩
  obtain ⟨-, rfl⟩ := Place.mk.inj (Option.some.inj (place.symm.trans named))
  exact absurd positive (by decide)

end Environment

end TextTemplate
