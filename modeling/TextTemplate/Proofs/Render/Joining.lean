import TextTemplate.Proofs.Render.Plain
import TextTemplate.Proofs.Render.Streaming
import TextTemplate.Proofs.Syntax.Relocation

/-!
Rendering sources one behind the other. Where the first of two sources ends with a tag and neither of
them declares anything, both together write what the one writes and behind it what the other writes.
-/
namespace TextTemplate

theorem Failure.Alike.symm {a b : Failure} (alike : a.Alike b) : b.Alike a :=
  ⟨alike.problem.symm, alike.causes.symm⟩

theorem Failure.Alike.trans {a b c : Failure} (alike : a.Alike b) (behind : b.Alike c) : a.Alike c :=
  ⟨alike.problem.trans behind.problem, alike.causes.trans behind.causes⟩

namespace Outcome

variable {a b c : Outcome}

theorem Alike.symm (alike : a.Alike b) : b.Alike a := by
  obtain ⟨sink, result⟩ := a
  obtain ⟨_, other⟩ := b
  obtain ⟨rfl, ends⟩ := alike
  refine ⟨rfl, ?_⟩
  cases result <;> cases other
  · exact Failure.Alike.symm ends
  · exact ends
  · exact ends
  · trivial

theorem Alike.trans (alike : a.Alike b) (behind : b.Alike c) : a.Alike c := by
  obtain ⟨sink, result⟩ := a
  obtain ⟨_, middle⟩ := b
  obtain ⟨_, other⟩ := c
  obtain ⟨rfl, ends⟩ := alike
  obtain ⟨rfl, ends'⟩ := behind
  cases result with
  | ok =>
    cases middle with
    | ok => exact ⟨rfl, ends'⟩
    | error failure => exact ends.elim
  | error failure =>
    cases middle with
    | ok => exact ends.elim
    | error failure' =>
      cases other with
      | ok => exact ends'.elim
      | error last => exact ⟨rfl, Failure.Alike.trans ends ends'⟩

theorem Alike.andThen {next other : Sink → Outcome} (alike : a.Alike b)
    (behind : ∀ sink, (next sink).Alike (other sink)) : (a.andThen next).Alike (b.andThen other) := by
  obtain ⟨sink, result⟩ := a
  obtain ⟨_, result'⟩ := b
  obtain ⟨rfl, ends⟩ := alike
  cases result <;> cases result'
  · exact ⟨rfl, ends⟩
  · exact ends.elim
  · exact ends.elim
  · exact behind sink

theorem andThen_assoc (outcome : Outcome) (first second : Sink → Outcome) :
    (outcome.andThen first).andThen second = outcome.andThen fun sink => (first sink).andThen second := by
  obtain ⟨sink, result⟩ := outcome
  cases result <;> rfl

end Outcome

/-- Statements are evaluated one after the other. -/
theorem Stmt.evaluateAll_append (scene : Scene) (nested : Nested) (fill : FillWriter) (first rest : List Stmt)
    (sink : Sink) :
    evaluateAll scene nested fill (first ++ rest) sink =
      (evaluateAll scene nested fill first sink).andThen fun after => evaluateAll scene nested fill rest after := by
  induction first generalizing sink with
  | nil => rfl
  | cons stmt first ih =>
    rw [List.cons_append, evaluateAll, evaluateAll, Outcome.andThen_assoc]
    simp only [ih]

namespace Environment

variable {env : Environment} {first second name written : String} {context : Value}

theorem renderSource_eq_ok {source : String} :
    env.renderSource source context = .ok written ↔
      env.renderInto sourceName (some source) context (.text "") = ⟨.text written, .ok ()⟩ := by
  have regular : Outcome.Regular (.text "") (env.renderInto sourceName (some source) context (.text "")) :=
    env.renderAt_regular _ _ _ _ _ _ rfl
  obtain ⟨text, same⟩ := regular.written.of_text
  rw [String.empty_append] at same
  rw [renderSource, textOf]
  generalize env.renderInto sourceName (some source) context (.text "") = outcome at same
  obtain ⟨sink, result⟩ := outcome
  obtain rfl : sink = .text text := same
  cases result with
  | ok => simp [Sink.written]
  | error failure => simp

/-- What a render writes into an empty text it writes behind another one. -/
theorem renderAt_behind {levels : Nat} {root vars : Value} {source : Option String} {session : Session}
    (writes : env.renderAt levels root source name vars session (.text "") = ⟨.text written, .ok ()⟩)
    (before : String) :
    env.renderAt levels root source name vars session (.text before) = ⟨.text (before ++ written), .ok ()⟩ := by
  have nothing : (Sink.text before).write "" = ⟨.text before, .ok ()⟩ := by rw [Sink.write, String.append_empty]
  have streams := env.renderAt_streams levels root source name vars session rfl nothing
  rw [writes] at streams
  generalize env.renderAt levels root source name vars session (.text before) = outcome at streams
  cases streams with
  | kept behind =>
    cases behind
    rfl
  | cut exceeds => cases exceeds

/-- Sources that are read one behind the other are rendered one after the other, into any sink. -/
theorem renderAt_append (env : Environment) (levels : Nat) (root vars : Value) (ends : Source.EndsWithTag first)
    (nothing : DeclaresNothing (Source.lexemes first).tokens)
    (nothing' : DeclaresNothing (Source.lexemes second).tokens) {start behind : Template}
    (parses : Template.parse first name = .ok start) (parses' : Template.parse second name = .ok behind) (sink : Sink) :
    (env.renderAt (levels + 1) root (some (first ++ second)) name vars {} sink).Alike
      ((env.renderAt (levels + 1) root (some first) name vars {} sink).andThen fun after =>
        env.renderAt (levels + 1) root (some second) name vars {} after) := by
  obtain ⟨plain, plain', both, parsesBoth, plainBoth, bare⟩ :=
    Template.parse_append ends nothing nothing' parses parses'
  rw [← Stmt.bareAll_append] at bare
  obtain ⟨compiled, alike⟩ := env.renderAt_plain levels root vars parses plain
  obtain ⟨compiled', alike'⟩ := env.renderAt_plain levels root vars parses' plain'
  obtain ⟨compiledBoth, alikeBoth⟩ := env.renderAt_plain levels root vars parsesBoth plainBoth
  -- the code of the three templates differs, but no statement depends on the code it stands in
  let scene : Scene := ⟨env, compiled, {}, root, vars⟩
  let scene' : Scene := ⟨env, compiled', {}, root, vars⟩
  let nested : Nested := env.renderAt levels root none
  have together : Stmt.evaluateUnfilled { scene with template := compiledBoth } nested both.children sink =
      (Stmt.evaluateUnfilled scene nested start.children sink).andThen fun after =>
        Stmt.evaluateUnfilled scene' nested behind.children after := by
    have second (after : Sink) : Stmt.evaluateUnfilled scene nested behind.children after =
        Stmt.evaluateUnfilled scene' nested behind.children after :=
      @Stmt.evaluateAll_congr scene' nested _ _ _ rfl compiled after
    simp only [← second]
    exact (Stmt.evaluateAll_congr bare compiledBoth sink).trans (Stmt.evaluateAll_append ..)
  refine (alikeBoth sink).trans ?_
  rw [together]
  exact (alike sink).symm.andThen fun after => (alike' after).symm

theorem parses_of_renderSource {source : String} (wrote : env.renderSource source context = .ok written) :
    ∃ template, Template.parse source sourceName = .ok template := by
  cases parsed : Template.parse source sourceName with
  | ok template => exact ⟨template, rfl⟩
  | error fault =>
    rw [renderSource_eq_ok, renderInto, renderAt_unread _ _ _ _ _ _ parsed] at wrote
    cases wrote

/-- Where the first of two sources ends with the end of a tag and neither extends a template or declares a section,
both together are cut into the tokens of the one and behind them those of the other, and they write both texts. -/
theorem renderSource_append (env : Environment) (context : Value) (ends : Source.EndsWithTag first)
    (nothing : DeclaresNothing (Source.lexemes first).tokens)
    (nothing' : DeclaresNothing (Source.lexemes second).tokens) :
    Source.lexemes (first ++ second) =
        ⟨(Source.lexemes first).tokens ++
            (Source.lexemes second).tokens.map (Lexeme.map (Position.behind first.toList).beyond),
          (Source.lexemes second).problem⟩ ∧
      ∀ {written written' : String}, env.renderSource first context = .ok written →
        env.renderSource second context = .ok written' →
        env.renderSource (first ++ second) context = .ok (written ++ written') := by
  refine ⟨Source.lexemes_append ends second, fun {written written'} wrote wrote' => ?_⟩
  obtain ⟨start, parses⟩ := parses_of_renderSource wrote
  obtain ⟨behind, parses'⟩ := parses_of_renderSource wrote'
  have alike := env.renderAt_append maxRenderDepth (env.rootOf context) (env.rootOf context) ends nothing nothing'
    parses parses' (.text "")
  have first : env.renderAt (maxRenderDepth + 1) (env.rootOf context) (some first) sourceName (env.rootOf context) {}
      (.text "") = ⟨.text written, .ok ()⟩ := renderSource_eq_ok.mp wrote
  have second : env.renderAt (maxRenderDepth + 1) (env.rootOf context) (some second) sourceName (env.rootOf context) {}
      (.text written) = ⟨.text (written ++ written'), .ok ()⟩ := renderAt_behind (renderSource_eq_ok.mp wrote') written
  rw [first] at alike
  dsimp only [Outcome.andThen] at alike
  rw [second] at alike
  exact alike.textOf

/-- Braces that open no tag stand in front of a conditional, and others behind it close none. -/
theorem renderSource_append_stray :
    let first := "\x7b\x7b \n" ++ Template.tag " if x " ++ "é \x7b\x7b" ++ Template.tag "x" ++ Template.tag "endif"
    let second := " \x7d\x7d\n" ++ Template.tag " not x " ++ "\n"
    let context : Value := .map [("x", .int 1)]
    (Source.lexemes (first ++ second)).tokens.length = 13 + 5 ∧
      ({} : Environment).renderSource (first ++ second) context = .ok "\x7b\x7b \né \x7b\x7b1 \x7d\x7d\nfalse" := by
  intro first second context
  obtain ⟨whole, last, nothing, length, wrote⟩ : (Source.lexemes first).problem = none ∧
      (∃ tagEnd ∈ (Source.lexemes first).tokens.getLast?, tagEnd.token = .tagEnd ∧
        tagEnd.span.stop.offset = String.utf8Len first.toList) ∧
      DeclaresNothing (Source.lexemes first).tokens ∧ (Source.lexemes first).tokens.length = 13 ∧
      (({} : Environment).renderSource first context).toOption = some "\x7b\x7b \né \x7b\x7b1" := by
    decide +kernel
  obtain ⟨nothing', length', wrote'⟩ : DeclaresNothing (Source.lexemes second).tokens ∧
      (Source.lexemes second).tokens.length = 5 ∧
      (({} : Environment).renderSource second context).toOption = some " \x7d\x7d\nfalse" := by
    decide +kernel
  obtain ⟨cut, writes⟩ := ({} : Environment).renderSource_append context ⟨whole, last⟩ nothing nothing'
  refine ⟨?_, ?_⟩
  · rw [cut, List.length_append, List.length_map, length, length']
  · exact (writes (eq_ok_of_toOption wrote) (eq_ok_of_toOption wrote')).trans (congrArg Except.ok (by decide))

end Environment

end TextTemplate
