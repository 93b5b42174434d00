import TextTemplate.Proofs.Compiled
import TextTemplate.Proofs.Declarations
import TextTemplate.Proofs.Store.Bound
import TextTemplate.Render.Chain

/-!
The chain of a template and its layouts. Behind templates whose content was evaluated the session
holds of every section the first in the chain. No name comes twice before a render stops, so that it
never runs out of hops.
-/
namespace TextTemplate

/-- What an environment renders with: a template runs unless it is nested too deeply. -/
def Environment.evaluateAt (env : Environment) (levels : Nat) (root vars : Value) : Chain.Evaluate :=
  match levels with
  | 0 => fun _ _ sink => ⟨sink, .error (.ofProblem .tooDeep)⟩
  | levels + 1 => fun compiled session sink =>
    Machine.run ⟨env, compiled, session, root, vars⟩ (env.renderAt levels root none) 0 [] sink

theorem Environment.renderAt_eq_run (env : Environment) (levels : Nat) (root : Value) (source : Option String)
    (name : String) (vars : Value) (session : Session) (sink : Sink) :
    env.renderAt levels root source name vars session sink =
      Chain.run env (env.evaluateAt levels root vars) (env.nameBound + 2) [] name source session sink := by
  cases levels <;> rfl

/-- A template of a chain. -/
structure Link where
  name : String
  source : String
  template : Template

/-- A template with the tree that is read from its source. -/
def Link.ofSource (name source : String) : Link :=
  ⟨name, source, (Template.parse source name).toOption.getD ⟨[], default⟩⟩

/-- The session that a template is filled from. -/
def Session.declared (session : Session) (link : Link) : Session :=
  Stmt.declareAll link.name session link.template.children

/-- A template of a chain with its fills resolved. -/
def Link.compiled (link : Link) (statements : List Filled) : Compiled :=
  ⟨link.name, link.source, .ofStatements statements⟩

namespace Chain

def names (chain : List Link) : List String :=
  chain.map Link.name

/-- The session behind a chain of templates, each of which declared its sections and had its layout taken. -/
def sessionOf (base : Session) (chain : List Link) : Session :=
  chain.foldl (fun session link => (session.declared link).fork) base

/-- The section of a name in the first template of a chain that declares one. -/
def sectionOf (chain : List Link) (name : String) : Option CapturedSection :=
  chain.findSome? fun link => (link.template.body? name).map (⟨link.name, ·⟩)

theorem section?_sessionOf (base : Session) (chain : List Link) (name : String) :
    (sessionOf base chain).section? name = (base.section? name).or (sectionOf chain name) := by
  induction chain generalizing base with
  | nil => simp [sessionOf, sectionOf]
  | cons first rest ih =>
    have inner : (base.declared first).fork.section? name = _ :=
      first.template.section?_declareAll first.name base name
    rw [sessionOf, List.foldl_cons, ← sessionOf, ih, inner, Option.or_assoc, sectionOf, sectionOf,
      List.findSome?_cons]
    cases first.template.body? name <;> rfl

theorem sessionOf_append (base : Session) (chain : List Link) (link : Link) :
    sessionOf base (chain ++ [link]) = ((sessionOf base chain).declared link).fork := by
  rw [sessionOf, List.foldl_append]
  rfl

theorem section?_declared (base : Session) (chain : List Link) (link : Link) :
    ((sessionOf base chain).declared link).section? = (sessionOf base (chain ++ [link])).section? := by
  rw [sessionOf_append]
  rfl

theorem layout_sessionOf {base : Session} (bare : base.layout = none) (chain : List Link) :
    (sessionOf base chain).layout = none := by
  induction chain generalizing base with
  | nil => exact bare
  | cons first rest ih => exact ih rfl

/-- A template that comes next in a chain can be loaded and compiled. -/
structure Opens (env : Environment) (base : Session) (chain : List Link) (given : Option String) (link : Link)
    (statements : List Filled) : Prop where
  fresh : link.name ∉ names chain
  loads : load env link.name given = .ok link.source
  parses : Template.parse link.source link.name = .ok link.template
  fills : Filled.ofStmts ((sessionOf base chain).declared link) maxFillDepth link.template.children = .ok statements

/-- What the name behind a chain comes to. -/
inductive Next (env : Environment) (base : Session) (chain : List Link) (given : Option String) : String → Prop where
  | again {name : String} : name ∈ names chain → Next env base chain given name
  | unloaded {name : String} {failure : Failure} :
    name ∉ names chain → load env name given = .error failure → Next env base chain given name
  | uncompiled {name text : String} {fault : Fault} :
    name ∉ names chain → load env name given = .ok text →
    Compiled.compile name text (sessionOf base chain) = .error fault → Next env base chain given name
  | opens {link : Link} {statements : List Filled} :
    Opens env base chain given link statements → Next env base chain given link.name

theorem next_cases (env : Environment) (base : Session) (chain : List Link) (given : Option String) (name : String) :
    Next env base chain given name := by
  by_cases seen : name ∈ names chain
  · exact .again seen
  cases loads : load env name given with
  | error failure => exact .unloaded seen loads
  | ok text =>
    cases compiles : Compiled.compile name text (sessionOf base chain) with
    | error fault => exact .uncompiled seen loads compiles
    | ok result =>
      obtain ⟨template, statements, parses, fills, -⟩ := Compiled.compile_eq_ok.mp compiles
      have opens : Opens env base chain given ⟨name, text, template⟩ statements := ⟨seen, loads, parses, fills⟩
      exact .opens opens

/-- The content of all templates of a chain was evaluated, and the last one extends the given name; the
first one may have its source `given`. -/
inductive Content (env : Environment) (base : Session) (evaluate : Evaluate) (start : String)
    (source : Option String) : List Link → String → Option String → Prop where
  | start : Content env base evaluate start source [] start source
  | next {chain : List Link} {link : Link} {given : Option String} {statements : List Filled} {layout : String} :
    Content env base evaluate start source chain link.name given →
    Opens env base chain given link statements →
    link.template.layout? = some layout →
    (evaluate (link.compiled statements) (sessionOf base (chain ++ [link])) .discarding).result = .ok () →
    Content env base evaluate start source (chain ++ [link]) layout none

/-- What the fills of a template come to behind a chain. -/
def filled (base : Session) (chain : List Link) (link : Link) : Except Fault (List Filled) :=
  Filled.ofStmts ((sessionOf base chain).declared link) maxFillDepth link.template.children

/-- Whether a source can be compiled behind a chain. -/
def isOpen (base : Session) (chain : List Link) (name text : String) : Bool :=
  (Template.parse text name).isOk && (filled base chain (.ofSource name text)).isOk

/-- Whether a source can be compiled behind a chain, extends a layout, and can be evaluated for its sections. -/
def leadsTo (evaluate : Evaluate) (base : Session) (chain : List Link) (name text layout : String) : Bool :=
  let link := Link.ofSource name text
  let compiled := link.compiled ((filled base chain link).toOption.getD [])
  isOpen base chain name text && link.template.layout? == some layout &&
    (evaluate compiled (sessionOf base (chain ++ [link])) .discarding).result.isOk

section
variable {env : Environment} {base : Session} {evaluate : Evaluate} {start name layout : String}
  {source given : Option String} {chain : List Link} {link : Link} {statements : List Filled} {hops : Nat}
  {sink : Sink} {failure : Failure}

theorem Opens.compile (opens : Opens env base chain given link statements) :
    Compiled.compile link.name link.source (sessionOf base chain) =
      .ok (link.compiled statements, (sessionOf base chain).declared link) :=
  Compiled.compile_eq_ok.mpr ⟨link.template, statements, opens.parses, opens.fills, rfl⟩

theorem parse_of_isOpen {text : String} (opens : isOpen base chain name text = true) :
    Template.parse text name = .ok (Link.ofSource name text).template :=
  eq_ok_getD _ (Bool.and_eq_true_iff.mp opens).1

theorem opens_of_isOpen {text : String} (fresh : name ∉ names chain) (loads : load env name given = .ok text)
    (opens : isOpen base chain name text = true) :
    Opens env base chain given (.ofSource name text) ((filled base chain (.ofSource name text)).toOption.getD []) :=
  ⟨fresh, loads, parse_of_isOpen opens, eq_ok_getD [] (Bool.and_eq_true_iff.mp opens).2⟩

theorem isOpen_of_leadsTo {text : String} (leads : leadsTo evaluate base chain name text layout = true) :
    isOpen base chain name text = true ∧ (Link.ofSource name text).template.layout? = some layout := by
  obtain ⟨front, -⟩ := Bool.and_eq_true_iff.mp leads
  obtain ⟨opens, extended⟩ := Bool.and_eq_true_iff.mp front
  exact ⟨opens, beq_iff_eq.mp extended⟩

theorem Content.of_leadsTo {text : String} (content : Content env base evaluate start source chain name given)
    (fresh : name ∉ names chain) (loads : load env name given = .ok text)
    (leads : leadsTo evaluate base chain name text layout = true) :
    Content env base evaluate start source (chain ++ [.ofSource name text]) layout none := by
  obtain ⟨opens, extended⟩ := isOpen_of_leadsTo leads
  have evaluated := (Bool.and_eq_true_iff.mp leads).2
  exact .next content (opens_of_isOpen fresh loads opens) extended (eq_ok_getD () evaluated)

theorem contains_reverse_names : (names chain).reverse.contains name = true ↔ name ∈ names chain := by
  rw [List.contains_iff_mem, List.mem_reverse]

theorem run_cycle (again : name ∈ names chain) :
    run env evaluate hops (names chain).reverse name given (sessionOf base chain) sink =
      ⟨sink, .error (.ofProblem (.layoutCycle name))⟩ := by
  cases hops with
  | zero => rfl
  | succ hops => rw [run, if_pos (contains_reverse_names.mpr again)]

theorem run_unloaded (fresh : name ∉ names chain) (fails : load env name given = .error failure) :
    run env evaluate (hops + 1) (names chain).reverse name given (sessionOf base chain) sink =
      ⟨sink, .error failure⟩ := by
  rw [run, if_neg (mt contains_reverse_names.mp fresh), fails]

theorem run_uncompiled {text : String} {fault : Fault} (fresh : name ∉ names chain)
    (loads : load env name given = .ok text)
    (fails : Compiled.compile name text (sessionOf base chain) = .error fault) :
    run env evaluate (hops + 1) (names chain).reverse name given (sessionOf base chain) sink =
      ⟨sink, .error ⟨fault, []⟩⟩ := by
  rw [run, if_neg (mt contains_reverse_names.mp fresh), loads]
  simp only [fails]

theorem layout_declared (extended : link.template.layout? = some layout) :
    ((sessionOf base chain).declared link).layout = some layout := by
  rw [Session.declared, link.template.layout_declareAll, extended]
  rfl

theorem layout_declared_last (bare : base.layout = none) (last : link.template.layout? = none) :
    ((sessionOf base chain).declared link).layout = none := by
  rw [Session.declared, link.template.layout_declareAll, last, layout_sessionOf bare]
  rfl

/-- The last template writes. -/
theorem run_final (bare : base.layout = none) (opens : Opens env base chain given link statements)
    (last : link.template.layout? = none) :
    run env evaluate (hops + 1) (names chain).reverse link.name given (sessionOf base chain) sink =
      evaluate (link.compiled statements) (sessionOf base (chain ++ [link])) sink := by
  have taken : ((sessionOf base chain).declared link).takeLayout = (none, sessionOf base (chain ++ [link])) := by
    rw [Session.takeLayout, layout_declared_last bare last, sessionOf_append]
    rfl
  rw [run, if_neg (mt contains_reverse_names.mp opens.fresh), opens.loads]
  simp only [opens.compile, taken]

theorem takeLayout_declared (extended : link.template.layout? = some layout) :
    ((sessionOf base chain).declared link).takeLayout = (some layout, sessionOf base (chain ++ [link])) := by
  rw [Session.takeLayout, layout_declared extended, sessionOf_append]
  rfl

/-- The content of a template with a layout is evaluated for its success only. -/
theorem run_content (opens : Opens env base chain given link statements)
    (extended : link.template.layout? = some layout)
    (evaluated : (evaluate (link.compiled statements) (sessionOf base (chain ++ [link])) .discarding).result = .ok ()) :
    run env evaluate (hops + 1) (names chain).reverse link.name given (sessionOf base chain) sink =
      run env evaluate hops (names (chain ++ [link])).reverse layout none (sessionOf base (chain ++ [link])) sink := by
  have reversed : (names (chain ++ [link])).reverse = link.name :: (names chain).reverse := by simp [names]
  rw [run, if_neg (mt contains_reverse_names.mp opens.fresh), opens.loads]
  simp only [opens.compile, takeLayout_declared extended, evaluated, reversed]

theorem run_broken (opens : Opens env base chain given link statements)
    (extended : link.template.layout? = some layout)
    (fails : (evaluate (link.compiled statements) (sessionOf base (chain ++ [link])) .discarding).result =
      .error failure) :
    run env evaluate (hops + 1) (names chain).reverse link.name given (sessionOf base chain) sink =
      ⟨sink, .error failure⟩ := by
  rw [run, if_neg (mt contains_reverse_names.mp opens.fresh), opens.loads]
  simp only [opens.compile, takeLayout_declared extended, fails]

theorem run_of_content (content : Content env base evaluate start source chain name given) :
    run env evaluate (hops + chain.length) [] start source base sink =
      run env evaluate hops (names chain).reverse name given (sessionOf base chain) sink := by
  induction content generalizing hops with
  | start => rfl
  | @next chain link given statements layout content opens extended evaluated ih =>
    have shift : hops + (chain ++ [link]).length = hops + 1 + chain.length := by
      rw [List.length_append, List.length_singleton]
      omega
    rw [shift, ih, run_content opens extended evaluated]

theorem Content.given_eq_none (content : Content env base evaluate start source chain name given)
    (later : chain ≠ []) : given = none := by
  cases content with
  | start => exact absurd rfl later
  | next => rfl

theorem Content.nodup (content : Content env base evaluate start source chain name given) : (names chain).Nodup := by
  induction content with
  | start => exact List.nodup_nil
  | next content opens extended evaluated ih =>
    rw [names, List.map_append]
    exact List.nodup_append.mpr ⟨ih, List.nodup_singleton _, fun a before b last same =>
      opens.fresh (List.mem_singleton.mp last ▸ same ▸ before)⟩

/-- All templates of a chain but the first were loaded from the environment. -/
theorem Content.loadable (content : Content env base evaluate start source chain name given) :
    ∀ later ∈ (names chain).tail, ∃ text, env.load later = .ok text := by
  induction content with
  | start => simp [names]
  | @next chain link given statements layout content opens extended evaluated ih =>
    cases chain with
    | nil => simp [names]
    | cons first rest =>
      intro later found
      have loads := opens.loads
      rw [content.given_eq_none (List.cons_ne_nil first rest)] at loads
      simp only [names, List.cons_append, List.map_cons, List.tail_cons, List.map_append, List.map_nil,
        List.mem_append, List.mem_singleton] at found
      rcases found with earlier | rfl
      · exact ih later earlier
      · exact ⟨_, loads⟩

/-- A chain has at most one template more than can be loaded, since the first one may have a source of its own. -/
theorem Content.length_le (content : Content env base evaluate start source chain name given) :
    chain.length ≤ env.nameBound + 1 := by
  have later : (names chain).tail.length ≤ env.nameBound :=
    Environment.length_le_nameBound content.nodup.tail content.loadable
  rw [List.length_tail, names, List.length_map] at later
  omega

/-- The render of a chain comes to the template behind it with a hop left. -/
theorem Content.run_eq (content : Content env base evaluate start source chain name given) (sink : Sink) :
    ∃ hops, run env evaluate (env.nameBound + 2) [] start source base sink =
      run env evaluate (hops + 1) (names chain).reverse name given (sessionOf base chain) sink := by
  have bounded := content.length_le
  obtain ⟨hops, enough⟩ : ∃ hops, env.nameBound + 2 = hops + 1 + chain.length :=
    ⟨env.nameBound + 1 - chain.length, by omega⟩
  exact ⟨hops, by rw [enough, run_of_content content]⟩

end

/-- How a render that reached some template of a chain ends. -/
inductive Ends (env : Environment) (base : Session) (evaluate : Evaluate) (start : String) (source : Option String)
    (sink : Sink) : Outcome → Prop where
  | cycle {chain : List Link} {name : String} {given : Option String} :
    Content env base evaluate start source chain name given → name ∈ names chain →
    Ends env base evaluate start source sink ⟨sink, .error (.ofProblem (.layoutCycle name))⟩
  | unloaded {chain : List Link} {name : String} {given : Option String} {failure : Failure} :
    Content env base evaluate start source chain name given → load env name given = .error failure →
    Ends env base evaluate start source sink ⟨sink, .error failure⟩
  | uncompiled {chain : List Link} {name text : String} {given : Option String} {fault : Fault} :
    Content env base evaluate start source chain name given → name ∉ names chain →
    load env name given = .ok text → Compiled.compile name text (sessionOf base chain) = .error fault →
    Ends env base evaluate start source sink ⟨sink, .error ⟨fault, []⟩⟩
  | broken {chain : List Link} {link : Link} {given : Option String} {statements : List Filled} {layout : String}
    {failure : Failure} :
    Content env base evaluate start source chain link.name given → Opens env base chain given link statements →
    link.template.layout? = some layout →
    (evaluate (link.compiled statements) (sessionOf base (chain ++ [link])) .discarding).result = .error failure →
    Ends env base evaluate start source sink ⟨sink, .error failure⟩
  | final {chain : List Link} {link : Link} {given : Option String} {statements : List Filled} :
    Content env base evaluate start source chain link.name given → Opens env base chain given link statements →
    link.template.layout? = none →
    Ends env base evaluate start source sink
      (evaluate (link.compiled statements) (sessionOf base (chain ++ [link])) sink)

section
variable {env : Environment} {base : Session} {evaluate : Evaluate} {start name layout : String}
  {source given : Option String} {chain : List Link} {link : Link} {statements : List Filled} {hops : Nat}
  {sink : Sink} {failure : Failure}

/-- Enough hops are left as long as one more name may follow. -/
theorem Content.run_ends (bare : base.layout = none)
    (content : Content env base evaluate start source chain name given)
    (enough : env.nameBound + 2 ≤ hops + chain.length) :
    Ends env base evaluate start source sink
      (run env evaluate hops (names chain).reverse name given (sessionOf base chain) sink) := by
  induction hops generalizing chain name given with
  | zero =>
    have bounded := content.length_le
    omega
  | succ hops ih =>
    cases next_cases env base chain given name with
    | again seen =>
      rw [run_cycle seen]
      exact .cycle content seen
    | unloaded fresh fails =>
      rw [run_unloaded fresh fails]
      exact .unloaded content fails
    | uncompiled fresh loads fails =>
      rw [run_uncompiled fresh loads fails]
      exact .uncompiled content fresh loads fails
    | @opens link statements opens =>
      cases extended : link.template.layout? with
      | none =>
        rw [run_final bare opens extended]
        exact .final content opens extended
      | some layout =>
        cases evaluated : (evaluate (link.compiled statements) (sessionOf base (chain ++ [link])) .discarding).result with
        | error failure =>
          rw [run_broken opens extended evaluated]
          exact .broken content opens extended evaluated
        | ok =>
          rw [run_content opens extended evaluated]
          refine ih (.next content opens extended evaluated) ?_
          rw [List.length_append, List.length_singleton]
          omega

end

end Chain

end TextTemplate
