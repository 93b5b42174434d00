import TextTemplate.Proofs.Code.Correctness
import TextTemplate.Proofs.Render.Chain

/-!
Rendering inside layouts is evaluating the last template of the chain, with every fill resolved to the
section of the first template that declares it. A chain that breaks off writes nothing.
-/
namespace TextTemplate

/-- A failure that left nothing in the sink. -/
structure Outcome.Silent (sink : Sink) (outcome : Outcome) : Prop where
  sink : outcome.sink = sink
  failed : ∃ failure, outcome.result = .error failure

namespace Chain

/-- The templates of a chain extend one another, whatever becomes of their content. -/
inductive Extends (env : Environment) (start : String) (source : Option String) :
    List Link → String → Option String → Prop where
  | start : Extends env start source [] start source
  | next {chain : List Link} {link : Link} {given : Option String} {layout : String} :
    Extends env start source chain link.name given →
    load env link.name given = .ok link.source →
    Template.parse link.source link.name = .ok link.template →
    link.template.layout? = some layout →
    Extends env start source (chain ++ [link]) layout none

section
variable {env : Environment} {base : Session} {evaluate : Evaluate} {start name : String}
  {source given : Option String} {chain : List Link} {sink : Sink}

theorem Extends.of_leadsTo {text layout : String} (linked : Extends env start source chain name given)
    (loads : load env name given = .ok text) (leads : leadsTo evaluate base chain name text layout = true) :
    Extends env start source (chain ++ [.ofSource name text]) layout none := by
  obtain ⟨opens, extended⟩ := isOpen_of_leadsTo leads
  exact .next linked loads (parse_of_isOpen opens) extended

theorem silent (sink : Sink) (failure : Failure) : Outcome.Silent sink ⟨sink, .error failure⟩ :=
  ⟨rfl, failure, rfl⟩

theorem Content.silent_of_closed (content : Content env base evaluate start source chain name given) (sink : Sink)
    (closed : ∀ link statements, link.name = name → ¬Opens env base chain given link statements) :
    (run env evaluate (env.nameBound + 2) [] start source base sink).Silent sink := by
  obtain ⟨hops, same⟩ := content.run_eq sink
  rw [same]
  cases next_cases env base chain given name with
  | again seen =>
    rw [run_cycle seen]
    exact silent sink _
  | unloaded fresh fails =>
    rw [run_unloaded fresh fails]
    exact silent sink _
  | uncompiled fresh loads fails =>
    rw [run_uncompiled fresh loads fails]
    exact silent sink _
  | opens opens => exact absurd opens (closed _ _ rfl)

theorem Content.silent_of_broken {link : Link} {statements : List Filled} {layout : String} {failure : Failure}
    (content : Content env base evaluate start source chain link.name given)
    (opens : Opens env base chain given link statements) (extended : link.template.layout? = some layout)
    (fails : (evaluate (link.compiled statements) (sessionOf base (chain ++ [link])) .discarding).result =
      .error failure) (sink : Sink) :
    (run env evaluate (env.nameBound + 2) [] start source base sink).Silent sink := by
  obtain ⟨hops, same⟩ := content.run_eq sink
  rw [same, run_broken opens extended fails]
  exact silent sink failure

/-- There is one template behind a chain at most. -/
theorem Opens.unique {link other : Link} {statements : List Filled} (opens : Opens env base chain given other statements)
    (named : other.name = link.name) (loads : load env link.name given = .ok link.source)
    (parses : Template.parse link.source link.name = .ok link.template) : other = link := by
  obtain ⟨name, text, template⟩ := link
  obtain ⟨name', text', template'⟩ := other
  obtain rfl : name' = name := named
  obtain rfl : text' = text := Except.ok.inj (opens.loads.symm.trans loads)
  obtain rfl : template' = template := Except.ok.inj (opens.parses.symm.trans parses)
  rfl

theorem Extends.content_or_silent (linked : Extends env start source chain name given) (sink : Sink) :
    Content env base evaluate start source chain name given ∨
      (run env evaluate (env.nameBound + 2) [] start source base sink).Silent sink := by
  induction linked with
  | start => exact .inl .start
  | @next chain link given layout _ loads parses extended ih =>
    rcases ih with content | broken
    · by_cases opening : ∃ statements, Opens env base chain given link statements
      · obtain ⟨statements, opens⟩ := opening
        cases evaluated : (evaluate (link.compiled statements) (sessionOf base (chain ++ [link])) .discarding).result with
        | error failure => exact .inr (content.silent_of_broken opens extended evaluated sink)
        | ok => exact .inl (.next content opens extended evaluated)
      · right
        apply content.silent_of_closed sink
        intro other statements named opens
        obtain rfl := opens.unique named loads parses
        exact opening ⟨statements, opens⟩
    · exact .inr broken

theorem Extends.silent_of_closed (linked : Extends env start source chain name given) (sink : Sink)
    (closed : ∀ link statements, link.name = name → ¬Opens env base chain given link statements) :
    (run env evaluate (env.nameBound + 2) [] start source base sink).Silent sink := by
  rcases linked.content_or_silent sink with content | broken
  · exact content.silent_of_closed sink closed
  · exact broken

theorem section?_declared_fresh (chain : List Link) (link : Link) :
    ((sessionOf {} chain).declared link).section? = sectionOf (chain ++ [link]) := by
  funext name
  rw [section?_declared, section?_sessionOf]
  rfl

end

/-- Rendering in two phases. Where the content of every template of a chain evaluates and the last
template extends nothing, a render with a fresh session is the evaluation of the last template, in which
a fill of a name stands for the section of the first template in the chain that declares it, also
inside other sections, or for nothing. Where any template of a chain cannot be loaded or compiled, or
its content fails, the render fails and has written nothing. -/
theorem renderAt_layouts (env : Environment) (levels : Nat) (root vars : Value) (start : String)
    (source : Option String) (sink : Sink) :
    let evaluate := env.evaluateAt levels root vars
    let outcome := env.renderAt levels root source start vars {} sink
    (∀ chain last given statements, Content env {} evaluate start source chain last.name given →
      Opens env {} chain given last statements → last.template.layout? = none →
      let compiled := last.compiled statements
      let session := sessionOf {} (chain ++ [last])
      outcome = evaluate compiled session sink ∧
      ∀ below depth, levels = below + 1 → maxFillDepth ≤ depth →
        outcome.Alike (Stmt.evaluateFilled ⟨env, compiled, session, root, vars⟩ (env.renderAt below root none)
          (sectionOf (chain ++ [last])) depth last.template.children sink)) ∧
    (∀ chain name given, Extends env start source chain name given →
      (¬Content env {} evaluate start source chain name given → outcome.Silent sink) ∧
      (∀ failure, load env name given = .error failure → outcome.Silent sink) ∧
      (∀ text fault, load env name given = .ok text →
        Compiled.compile name text (sessionOf {} chain) = .error fault → outcome.Silent sink)) := by
  intro evaluate outcome
  have ran : outcome = run env evaluate (env.nameBound + 2) [] start source {} sink :=
    env.renderAt_eq_run levels root source start vars {} sink
  constructor
  · intro chain last given statements content opens extended compiled session
    have final : outcome = evaluate compiled session sink := by
      obtain ⟨hops, same⟩ := content.run_eq sink
      rw [ran, same, run_final rfl opens extended]
    refine ⟨final, ?_⟩
    rintro below depth rfl enough
    have realizes : Machine.Realizes ⟨env, compiled, session, root, vars⟩ (env.renderAt below root none)
        (Filled.codeAll none statements) (Stmt.evaluateFilled ⟨env, compiled, session, root, vars⟩
          (env.renderAt below root none) ((sessionOf {} chain).declared last).section? depth
          last.template.children) :=
      Machine.filled_realizes enough none last.template.children opens.fills
    rw [section?_declared_fresh] at realizes
    rw [final]
    exact realizes.run_alike rfl sink
  · intro chain name given linked
    rw [ran]
    refine ⟨?_, ?_, ?_⟩
    · intro broken
      exact (linked.content_or_silent sink).resolve_left broken
    · intro failure fails
      apply linked.silent_of_closed sink
      rintro link statements rfl opens
      cases fails.symm.trans opens.loads
    · intro text fault loads fails
      apply linked.silent_of_closed sink
      rintro link statements rfl opens
      obtain rfl := Except.ok.inj (loads.symm.trans opens.loads)
      cases fails.symm.trans opens.compile

/-- A page in a layout of two columns inside a base layout, which is then taken away. -/
theorem renderAt_layouts_columns :
    let base := Template.tag "fill 'x'" ++ Template.tag "fill 'y'"
    let columns := Template.tag "extends 'base'" ++ Template.tag "section 'y'" ++ "!" ++ Template.tag "endsection"
    let page := Template.tag "extends 'columns'" ++ Template.tag "section 'x'" ++ Template.tag "fill 'y'" ++
      Template.tag "endsection"
    let env := ((({} : Environment).addTemplate "base" base).addTemplate "columns" columns).addTemplate "page" page
    let tree (name source : String) : Template := (Template.parse source name).toOption.getD ⟨[], default⟩
    let chain : List Link := [⟨"page", page, tree "page" page⟩, ⟨"columns", columns, tree "columns" columns⟩]
    let last : Link := ⟨"base", base, tree "base" base⟩
    let evaluate := env.evaluateAt 1 (.map []) (.map [])
    ∃ statements, Content env {} evaluate "page" none chain "base" none ∧
      Opens env {} chain none last statements ∧ last.template.layout? = none ∧
      env.renderAt 1 (.map []) none "page" (.map []) {} (.text "") =
        evaluate (last.compiled statements) (sessionOf {} (chain ++ [last])) (.text "") ∧
      ((env.removeTemplate "base").renderAt 1 (.map []) none "page" (.map []) {} (.text "")).Silent (.text "") := by
  intro base columns page env tree chain last evaluate
  obtain ⟨pageLeads, columnsLead, baseOpens, extended⟩ :
      leadsTo evaluate {} [] "page" page "columns" = true ∧
      leadsTo evaluate {} [.ofSource "page" page] "columns" columns "base" = true ∧
      isOpen {} chain "base" base = true ∧ last.template.layout? = none := by
    decide +kernel
  have contentPage : Content env {} evaluate "page" none _ "columns" none :=
    Content.start.of_leadsTo (by decide) rfl pageLeads
  have contentColumns : Content env {} evaluate "page" none chain "base" none :=
    contentPage.of_leadsTo (by decide) rfl columnsLead
  have opensBase : Opens env {} chain none last _ := opens_of_isOpen (by decide) rfl baseOpens
  obtain ⟨written, -⟩ := (renderAt_layouts env 1 (.map []) (.map []) "page" none (.text "")).1 chain last none _
    contentColumns opensBase extended
  have linked : Extends (env.removeTemplate "base") "page" none chain "base" none :=
    (Extends.start.of_leadsTo rfl pageLeads).of_leadsTo rfl columnsLead
  have broken := (renderAt_layouts (env.removeTemplate "base") 1 (.map []) (.map []) "page" none (.text "")).2
    chain "base" none linked
  exact ⟨_, contentColumns, opensBase, extended, written, broken.2.1 _ rfl⟩

end Chain

end TextTemplate
