import TextTemplate.Proofs.Bare
import TextTemplate.Proofs.Code.Correctness
import TextTemplate.Proofs.Filling
import TextTemplate.Proofs.Render.Chain

/-!
Rendering templates that declare nothing. Such a template is evaluated once, and its fills stand for
nothing, since no section was captured.
-/
namespace TextTemplate

/-- A template that extends no other one and declares no section. -/
def Template.IsPlain (template : Template) : Prop :=
  template.declarations = []

/-- What statements write where no section was captured. -/
def Stmt.evaluateUnfilled (scene : Scene) (nested : Nested) : List Stmt → Sink → Outcome :=
  evaluateAll scene nested fun _ sink => ⟨sink, .ok ()⟩

theorem Stmt.evaluateFilled_missing (scene : Scene) (nested : Nested) (depth : Nat) :
    evaluateFilled scene nested ({} : Session).section? depth = evaluateUnfilled scene nested := by
  cases depth <;> rw [evaluateFilled] <;> rfl

/-- The text of a run that ends like one into a text. -/
theorem Outcome.Alike.textOf {outcome : Outcome} {written : String} (alike : outcome.Alike ⟨.text written, .ok ()⟩) :
    Environment.textOf outcome = .ok written := by
  obtain ⟨sink, result⟩ := outcome
  obtain ⟨rfl, ends⟩ := alike
  cases result with
  | ok => rfl
  | error => cases ends

/-- A template that cannot be read is not rendered. -/
theorem Environment.renderAt_unread (env : Environment) (levels : Nat) (root vars : Value) (session : Session)
    (sink : Sink) {name source : String} {fault : Fault} (unread : Template.parse source name = .error fault) :
    env.renderAt levels root (some source) name vars session sink = ⟨sink, .error ⟨fault, []⟩⟩ := by
  have fails : Compiled.compile name source session = .error fault := by
    rw [Compiled.compile, unread]
    rfl
  rw [renderAt_eq_run, Chain.run, if_neg (by simp), Chain.load]
  simp only [fails]

/-- A template that is loaded by its name is rendered like one that is given by its source. -/
theorem Environment.renderAt_load (env : Environment) (levels : Nat) (root vars : Value) (session : Session) (sink : Sink)
    {name text : String} {source : Option String} (loads : Chain.load env name source = .ok text) :
    env.renderAt levels root source name vars session sink =
      env.renderAt levels root (some text) name vars session sink := by
  rw [renderAt_eq_run, renderAt_eq_run, Chain.run, Chain.run, loads]
  rfl

/-- A template that declares nothing is rendered as it is evaluated. -/
theorem Environment.renderAt_plain (env : Environment) (levels : Nat) (root vars : Value) {name source : String}
    {template : Template} (parses : Template.parse source name = .ok template) (plain : template.IsPlain) :
    ∃ compiled, ∀ sink, (env.renderAt (levels + 1) root (some source) name vars {} sink).Alike
      (Stmt.evaluateUnfilled ⟨env, compiled, {}, root, vars⟩ (env.renderAt levels root none) template.children
        sink) := by
  let link : Link := ⟨name, source, template⟩
  have declared : ({} : Session).declared link = {} := by
    show Stmt.declareAll name {} template.children = {}
    rw [Stmt.declareAll_eq]
    exact congrArg (List.foldl (Session.declare name) {}) plain
  have last : template.layout? = none := by rw [Template.layout?, plain]; rfl
  have missing : ∀ asked ∈ Stmt.allFills template.children, ({} : Session).section? asked = none := fun _ _ => rfl
  obtain ⟨statements, fills⟩ := Filled.ofStmts_of_missing missing maxFillDepth
  have opens : Chain.Opens env {} [] (some source) link statements := by
    refine ⟨List.not_mem_nil, rfl, parses, ?_⟩
    show Filled.ofStmts (({} : Session).declared link) maxFillDepth template.children = .ok statements
    rw [declared, fills]
  have behind : Chain.sessionOf {} ([] ++ [link]) = {} := by
    rw [Chain.sessionOf_append]
    exact congrArg Session.fork declared
  refine ⟨link.compiled statements, fun sink => ?_⟩
  have final : Chain.run env (env.evaluateAt (levels + 1) root vars) (env.nameBound + 2) [] name (some source) {} sink =
      env.evaluateAt (levels + 1) root vars (link.compiled statements) (Chain.sessionOf {} ([] ++ [link])) sink :=
    Chain.run_final rfl opens last
  rw [behind] at final
  have realizes : Machine.Realizes ⟨env, link.compiled statements, {}, root, vars⟩ (env.renderAt levels root none)
      (Filled.codeAll none statements) _ := Machine.filled_realizes (Nat.le_refl _) none template.children fills
  rw [Stmt.evaluateFilled_missing] at realizes
  rw [renderAt_eq_run]
  exact final ▸ realizes.run_alike rfl sink

/-- Statements that declare nothing and write a text, whatever template they stand in. -/
structure Stmt.Yields (env : Environment) (vars : Value) (stmts : List Stmt) (written : String) : Prop where
  plain : allDeclarations stmts = []
  writes : ∀ (scene : Scene) (nested : Nested) (before : String), scene.env = env → scene.vars = vars →
    evaluateUnfilled scene nested stmts (.text before) = ⟨.text (before ++ written), .ok ()⟩

/-- An output writes the text of the value, whatever the places in it are. -/
theorem Stmt.Yields.output {env : Environment} {vars v : Value} {value e : Expr} (span : Span)
    (bare : value.bare = e.bare) (found : e.evaluate env vars = .ok v) :
    Yields env vars [.output value span] v.display := by
  refine ⟨rfl, fun scene nested before here known => ?_⟩
  have found : value.evaluate scene.env scene.vars = .ok v := by
    rw [here, known, ← Expr.evaluate_bare, bare, Expr.evaluate_bare, found]
  rw [evaluateUnfilled, evaluateAll, evaluate, found]
  rfl

/-- A template renders to what its statements write, wherever its source comes from. -/
theorem Stmt.Yields.renderInto {env : Environment} {name text written : String} {source : Option String}
    {context : Value} {template : Template} (yields : Stmt.Yields env (env.rootOf context) template.children written)
    (loads : Chain.load env name source = .ok text) (parses : Template.parse text name = .ok template) :
    Environment.textOf (env.renderInto name source context (.text "")) = .ok written := by
  obtain ⟨compiled, alike⟩ :=
    env.renderAt_plain maxRenderDepth (env.rootOf context) (env.rootOf context) parses yields.plain
  replace alike := alike (.text "")
  rw [yields.writes _ _ "" rfl rfl, String.empty_append] at alike
  rw [Environment.renderInto, env.renderAt_load _ _ _ _ _ loads]
  exact alike.textOf

/-- A source renders to what its statements write. -/
theorem Stmt.Yields.renderSource {env : Environment} {source written : String} {context : Value} {template : Template}
    (yields : Stmt.Yields env (env.rootOf context) template.children written)
    (parses : Template.parse source Environment.sourceName = .ok template) :
    env.renderSource source context = .ok written :=
  yields.renderInto rfl parses

theorem Environment.renderSource_output {env : Environment} {source : String} {context v : Value} {template : Template}
    {value e : Expr} {span : Span} (parses : Template.parse source sourceName = .ok template)
    (children : template.children = [.output value span]) (bare : value.bare = e.bare)
    (found : e.evaluate env (env.rootOf context) = .ok v) : env.renderSource source context = .ok v.display := by
  have yields := Stmt.Yields.output span bare found
  rw [← children] at yields
  exact yields.renderSource parses

end TextTemplate
