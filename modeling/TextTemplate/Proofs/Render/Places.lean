import TextTemplate.Proofs.Code.Failing
import TextTemplate.Proofs.Render.Failures

/-!
Where failures of a render come from. A template, or one that is rendered for an item at any depth, fails
at a node; the failure names the template that the node stands in and its line there, and nothing on the way
out changes that.
-/
namespace TextTemplate

/-- What a render is asked for. -/
structure Request where
  source : Option String
  name : String
  vars : Value
  session : Session
  sink : Sink

namespace Request

/-- The render for an item. -/
def ofCall (session : Session) (call : Machine.Call) : Request :=
  ⟨none, call.name, call.vars, session.fork, call.sink⟩

def outcome (request : Request) (env : Environment) (levels : Nat) (root : Value) : Outcome :=
  env.renderAt levels root request.source request.name request.vars request.session request.sink

end Request

/-- The content of a template that has a layout is not written. -/
def Link.sinkOf (link : Link) (sink : Sink) : Sink :=
  match link.template.layout? with
  | none => sink
  | some _ => .discarding

/-- The direct evaluation of a template, its fills resolved to the sections of the scene. -/
def Link.evaluated (link : Link) (scene : Scene) (nested : Nested) (sink : Sink) : Outcome :=
  Stmt.evaluateFilled scene nested scene.session.section? maxFillDepth link.template.children (link.sinkOf sink)

def Link.culprit (link : Link) (scene : Scene) (nested : Nested) (sink : Sink) : Option Culprit :=
  Stmt.filledCulprit scene nested scene.session.section? maxFillDepth none link.template.children (link.sinkOf sink)

/-- The problems of the values that a template computes with. -/
def Problem.isOfValues : Problem → Bool
  | .incomparable .. | .notIterable _ => true
  | _ => false

namespace Environment

variable {env : Environment} {root : Value} {levels : Nat} {request : Request} {link : Link} {scene : Scene}

/-- The templates that a request comes to run. -/
inductive Runs (env : Environment) (root : Value) (levels : Nat) (request : Request) : Link → Scene → Prop where
  | intro {chain : List Link} {link : Link} {given : Option String} {statements : List Filled} :
    Chain.Content env request.session (env.evaluateAt (levels + 1) root request.vars) request.name request.source
      chain link.name given →
    Chain.Opens env request.session chain given link statements →
    Runs env root levels request link
      ⟨env, link.compiled statements, Chain.sessionOf request.session (chain ++ [link]), root, request.vars⟩

/-- A template that runs fails, and this is what fails of it. -/
structure Stops (env : Environment) (root : Value) (levels : Nat) (request : Request) (link : Link) (scene : Scene)
    (culprit : Culprit) (failure : Failure) : Prop where
  runs : Runs env root levels request link scene
  fails : ∃ written, link.evaluated scene (env.renderAt levels root none) request.sink = ⟨written, .error failure⟩
  culprit : link.culprit scene (env.renderAt levels root none) request.sink = some culprit

/-- A render fails at a node of the template of a name, itself or in the render for an item, since nothing that
failed before names a place. -/
inductive BreaksAt (env : Environment) (root : Value) : Nat → Request → Node → String → Problem → Prop where
  | here {levels : Nat} {request : Request} {link : Link} {scene : Scene} {culprit : Culprit} {failure : Failure} :
    Stops env root levels request link scene culprit failure → failure.fault.place = none →
    BreaksAt env root (levels + 1) request culprit.node (culprit.template.getD link.name) failure.fault.problem
  | inside {levels : Nat} {request : Request} {link : Link} {scene : Scene} {culprit : Culprit} {failure : Failure}
    {call : Machine.Call} {node : Node} {template : String} {problem : Problem} :
    Stops env root levels request link scene culprit failure → culprit.call = some call →
    BreaksAt env root levels (.ofCall scene.session call) node template problem →
    BreaksAt env root (levels + 1) request node template problem

/-- A render compiles a text under a name, itself or in the render for the item that it stops at. -/
inductive Compiles (env : Environment) (root : Value) : Nat → Request → String → String → Prop where
  | here {levels : Nat} {request : Request} {chain : List Link} {given : Option String} {name text : String} :
    Chain.Content env request.session (env.evaluateAt levels root request.vars) request.name request.source
      chain name given →
    name ∉ Chain.names chain → Chain.load env name given = .ok text →
    Compiles env root levels request name text
  | inside {levels : Nat} {request : Request} {link : Link} {scene : Scene} {culprit : Culprit} {failure : Failure}
    {call : Machine.Call} {name text : String} :
    Stops env root levels request link scene culprit failure → culprit.call = some call →
    Compiles env root levels (.ofCall scene.session call) name text →
    Compiles env root (levels + 1) request name text

/-- How a render fails: without a node, in a text that cannot be compiled, or at a node of a template that runs. -/
inductive FailsWith (env : Environment) (root : Value) : Nat → Request → Failure → Prop where
  | nowhere {levels : Nat} {request : Request} {failure : Failure} :
    failure.fault.place = none → failure.fault.source = none → failure.fault.problem.isOfValues = false →
    FailsWith env root levels request failure
  | uncompiled {levels : Nat} {request : Request} {chain : List Link} {given : Option String} {name text : String}
    {fault : Fault} :
    Chain.Content env request.session (env.evaluateAt levels root request.vars) request.name request.source
      chain name given →
    name ∉ Chain.names chain → Chain.load env name given = .ok text →
    Compiled.compile name text (Chain.sessionOf request.session chain) = .error fault →
    FailsWith env root levels request ⟨fault, []⟩
  | alone {levels : Nat} {request : Request} {link : Link} {scene : Scene} {culprit : Culprit} {problem : Problem} :
    Stops env root levels request link scene culprit (.ofProblem problem) →
    FailsWith env root (levels + 1) request (scene.report culprit.origin (.ofProblem problem))
  | inside {levels : Nat} {request : Request} {link : Link} {scene : Scene} {culprit : Culprit} {failure : Failure}
    {call : Machine.Call} :
    Stops env root levels request link scene culprit failure → culprit.call = some call →
    FailsWith env root levels (.ofCall scene.session call) failure →
    FailsWith env root (levels + 1) request (scene.report culprit.origin failure)

/-- How a render fails while none of its templates is evaluated, or at its output, which names no node. -/
inductive FailsOutside (env : Environment) (root : Value) : Nat → Request → Failure → Prop where
  | cycle {levels : Nat} {request : Request} {chain : List Link} {given : Option String} {name : String} :
    Chain.Content env request.session (env.evaluateAt levels root request.vars) request.name request.source
      chain name given →
    name ∈ Chain.names chain →
    FailsOutside env root levels request (.ofProblem (.layoutCycle name))
  | unloaded {levels : Nat} {request : Request} {chain : List Link} {given : Option String} {name : String}
    {failure : Failure} :
    Chain.Content env request.session (env.evaluateAt levels root request.vars) request.name request.source
      chain name given →
    Chain.load env name given = .error failure →
    FailsOutside env root levels request failure
  | uncompiled {levels : Nat} {request : Request} {chain : List Link} {given : Option String} {name text : String}
    {fault : Fault} :
    Chain.Content env request.session (env.evaluateAt levels root request.vars) request.name request.source
      chain name given →
    name ∉ Chain.names chain → Chain.load env name given = .ok text →
    Compiled.compile name text (Chain.sessionOf request.session chain) = .error fault →
    FailsOutside env root levels request ⟨fault, []⟩
  | tooDeep {request : Request} {chain : List Link} {link : Link} {given : Option String} {statements : List Filled} :
    Chain.Content env request.session (env.evaluateAt 0 root request.vars) request.name request.source
      chain link.name given →
    Chain.Opens env request.session chain given link statements →
    FailsOutside env root 0 request (.ofProblem .tooDeep)
  | unwritten {levels : Nat} {request : Request} {link : Link} {scene : Scene} :
    Runs env root levels request link scene →
    FailsOutside env root (levels + 1) request (.ofProblem .formattingFailed)

end Environment

namespace Chain

variable {env : Environment} {base : Session} {evaluate : Evaluate} {start name : String}
  {source given : Option String} {chain : List Link} {link : Link}

/-- Each template of a chain came next behind those in front of it. -/
theorem Content.opens_of_mem (content : Content env base evaluate start source chain name given) (found : link ∈ chain) :
    ∃ before given statements, Content env base evaluate start source before link.name given ∧
      Opens env base before given link statements := by
  induction content with
  | start => cases found
  | next content opens _ _ ih =>
    rcases List.mem_append.mp found with earlier | last
    · exact ih earlier
    · obtain rfl := List.mem_singleton.mp last
      exact ⟨_, _, _, content, opens⟩

end Chain

/-- The sections of a session were declared in texts that stand under the names of their templates. -/
def Session.CapturedFrom (texts : String → String → Prop) (session : Session) : Prop :=
  ∀ name captured, session.section? name = some captured →
    ∃ text template, texts captured.origin text ∧ Template.parse text captured.origin = .ok template ∧
      .capture name captured.body ∈ template.declarations

namespace Session.CapturedFrom

variable {texts others : String → String → Prop} {session : Session}

theorem mono (from_ : session.CapturedFrom texts) (more : ∀ {name text}, texts name text → others name text) :
    session.CapturedFrom others := by
  intro name captured found
  obtain ⟨text, template, known, rest⟩ := from_ name captured found
  exact ⟨text, template, more known, rest⟩

theorem fork (from_ : session.CapturedFrom texts) : session.fork.CapturedFrom texts :=
  from_

/-- What a template declares, it declares in its own text. -/
theorem declareAll (from_ : session.CapturedFrom texts) {name text : String} {template : Template}
    (known : texts name text) (parses : Template.parse text name = .ok template) :
    (Stmt.declareAll name session template.children).CapturedFrom texts := by
  intro section_ captured found
  rw [Template.section?_declareAll] at found
  obtain earlier | ⟨-, own⟩ := Option.or_eq_some_iff.mp found
  · exact from_ section_ captured earlier
  obtain ⟨body, declared, rfl⟩ := Option.map_eq_some_iff.mp own
  obtain ⟨declaration, among, named⟩ := List.exists_of_findSome?_eq_some declared
  refine ⟨text, template, known, parses, ?_⟩
  cases declaration with
  | layout => cases named
  | capture other inner =>
    obtain ⟨rfl, rfl⟩ : other = section_ ∧ inner = body := by simpa [Declaration.body?] using named
    exact among

/-- Behind a chain of templates a session holds what they declare. -/
theorem sessionOf (from_ : session.CapturedFrom texts) {chain : List Link}
    (links : ∀ link ∈ chain, texts link.name link.source ∧ Template.parse link.source link.name = .ok link.template) :
    (Chain.sessionOf session chain).CapturedFrom texts := by
  induction chain generalizing session with
  | nil => exact from_
  | cons link chain ih =>
    obtain ⟨⟨known, parses⟩, links⟩ := List.forall_mem_cons.mp links
    exact ih (from_.declareAll known parses).fork links

end Session.CapturedFrom

namespace Environment

variable {env : Environment} {root : Value} {levels : Nat} {request : Request} {link : Link} {scene : Scene}
  {culprit : Culprit} {failure : Failure} {texts : String → String → Prop}

theorem Runs.compiles (runs : Runs env root levels request link scene) :
    Compiles env root (levels + 1) request link.name link.source ∧
      Template.parse link.source link.name = .ok link.template := by
  obtain ⟨content, opens⟩ := runs
  exact ⟨.here content opens.fresh opens.loads, opens.parses⟩

theorem capturedFrom_of_content {chain : List Link} {name : String} {given : Option String}
    (content : Chain.Content env request.session (env.evaluateAt levels root request.vars) request.name request.source
      chain name given) (from_ : request.session.CapturedFrom texts) :
    (Chain.sessionOf request.session chain).CapturedFrom fun name text =>
      texts name text ∨ Compiles env root levels request name text := by
  refine (from_.mono .inl).sessionOf fun link inside => ?_
  obtain ⟨before, given, statements, content, opens⟩ := content.opens_of_mem inside
  exact ⟨.inr (.here content opens.fresh opens.loads), opens.parses⟩

/-- The sections that a template sees come from the templates before it, or from outside. -/
theorem Runs.capturedFrom (runs : Runs env root levels request link scene) (from_ : request.session.CapturedFrom texts) :
    scene.session.CapturedFrom fun name text => texts name text ∨ Compiles env root (levels + 1) request name text := by
  have own := runs.compiles
  obtain ⟨content, opens⟩ := runs
  rw [Chain.sessionOf_append]
  exact ((capturedFrom_of_content content from_).declareAll (.inr own.1) own.2).fork

theorem Runs.run_eq (runs : Runs env root levels request link scene) (bare : request.session.layout = none)
    (fails : (Machine.run scene (env.renderAt levels root none) 0 [] (link.sinkOf request.sink)).result =
      .error failure) :
    (request.outcome env (levels + 1) root).result = .error failure := by
  obtain ⟨content, opens⟩ := runs
  rw [Request.outcome, renderAt_eq_run]
  obtain ⟨hops, same⟩ := content.run_eq request.sink
  rw [same]
  cases extended : link.template.layout? with
  | none =>
    rw [Link.sinkOf, extended] at fails
    rw [Chain.run_final bare opens extended]
    exact fails
  | some layout =>
    rw [Link.sinkOf, extended] at fails
    rw [Chain.run_broken opens extended fails]

/-- A template that runs fails with what its evaluation fails with. -/
theorem Runs.fails (runs : Runs env root levels request link scene) {written : Sink} {cause : Failure}
    (fails : link.evaluated scene (env.renderAt levels root none) request.sink = ⟨written, .error cause⟩) :
    let culprit := link.culprit scene (env.renderAt levels root none) request.sink
    Machine.run scene (env.renderAt levels root none) 0 [] (link.sinkOf request.sink) =
        ⟨written, .error (scene.blaming culprit cause)⟩ ∧
      Machine.Explains scene (env.renderAt levels root none) culprit cause := by
  obtain ⟨content, opens⟩ := runs
  rw [Link.evaluated, Link.culprit] at *
  dsimp only at fails ⊢
  rw [← Chain.section?_declared] at fails ⊢
  exact Machine.run_fails opens.fills rfl fails

/-- Where the evaluation succeeds, so does the run. -/
theorem Runs.evaluated_error (runs : Runs env root levels request link scene)
    (fails : (Machine.run scene (env.renderAt levels root none) 0 [] (link.sinkOf request.sink)).result =
      .error failure) :
    ∃ written cause, link.evaluated scene (env.renderAt levels root none) request.sink = ⟨written, .error cause⟩ := by
  obtain ⟨content, opens⟩ := runs
  rename_i chain given statements
  let scene : Scene :=
    ⟨env, link.compiled statements, Chain.sessionOf request.session (chain ++ [link]), root, request.vars⟩
  have realizes : Machine.Realizes scene (env.renderAt levels root none) (Filled.codeAll none statements) _ :=
    Machine.filled_realizes (Nat.le_refl _) none link.template.children opens.fills
  rw [Chain.section?_declared] at realizes
  have same := (realizes.run_alike rfl (link.sinkOf request.sink)).result
  rw [fails] at same
  cases evaluated : link.evaluated scene (env.renderAt levels root none) request.sink with
  | mk written result =>
    cases result with
    | error cause => exact ⟨written, cause, rfl⟩
    | ok =>
      rw [← Link.evaluated, evaluated] at same
      exact same.elim

/-- A render fails with the failure of the template that it stops at, which names the node. -/
theorem Stops.outcome_eq (stops : Stops env root levels request link scene culprit failure)
    (bare : request.session.layout = none) :
    (request.outcome env (levels + 1) root).result = .error (scene.report culprit.origin failure) := by
  obtain ⟨written, fails⟩ := stops.fails
  have run := (stops.runs.fails fails).1
  rw [stops.culprit] at run
  exact stops.runs.run_eq bare (congrArg Outcome.result run)

/-- The failure at a node is that of the render for the item there, or a problem of its own. -/
theorem Stops.explains (stops : Stops env root levels request link scene culprit failure) :
    (culprit.call = none ∧ ∃ problem, failure = .ofProblem problem) ∨
      ∃ call, culprit.call = some call ∧
        ((Request.ofCall scene.session call).outcome env levels root).result = .error failure := by
  obtain ⟨written, fails⟩ := stops.fails
  have explains := (stops.runs.fails fails).2
  rw [stops.culprit] at explains
  obtain ⟨node, template, call⟩ := culprit
  cases call with
  | none => exact .inl ⟨rfl, explains⟩
  | some call => exact .inr ⟨call, rfl, explains⟩

/-- A template that runs fails at its output or stops at a node. -/
theorem Runs.outside_or_stops (runs : Runs env root levels request link scene)
    (fails : (Machine.run scene (env.renderAt levels root none) 0 [] (link.sinkOf request.sink)).result =
      .error failure) :
    FailsOutside env root (levels + 1) request failure ∨
      ∃ culprit cause, Stops env root levels request link scene culprit cause ∧
        failure = scene.report culprit.origin cause := by
  obtain ⟨written, cause, evaluated⟩ := runs.evaluated_error fails
  obtain ⟨run, explains⟩ := runs.fails evaluated
  rw [run] at fails
  obtain rfl := Except.error.inj fails
  cases found : link.culprit scene (env.renderAt levels root none) request.sink with
  | none =>
    rw [found] at explains
    obtain rfl : cause = .ofProblem .formattingFailed := explains
    exact .inl (.unwritten runs)
  | some culprit => exact .inr ⟨culprit, cause, ⟨runs, ⟨written, evaluated⟩, found⟩, rfl⟩

/-- A render fails outside of its templates, or one of them fails where it is evaluated. -/
theorem outside_or_evaluated (bare : request.session.layout = none)
    (fails : (request.outcome env levels root).result = .error failure) :
    FailsOutside env root levels request failure ∨
      ∃ chain link given statements,
        Chain.Content env request.session (env.evaluateAt levels root request.vars) request.name request.source
          chain link.name given ∧
        Chain.Opens env request.session chain given link statements ∧
        (env.evaluateAt levels root request.vars (link.compiled statements)
          (Chain.sessionOf request.session (chain ++ [link])) (link.sinkOf request.sink)).result = .error failure := by
  have ends : Chain.Ends env request.session (env.evaluateAt levels root request.vars) request.name request.source
      request.sink (request.outcome env levels root) := by
    rw [Request.outcome, renderAt_eq_run]
    exact Chain.Content.run_ends bare .start (Nat.le_refl _)
  generalize request.outcome env levels root = outcome at fails ends
  cases ends with
  | cycle content again =>
    obtain rfl := Except.error.inj fails
    exact .inl (.cycle content again)
  | unloaded content unread =>
    obtain rfl := Except.error.inj fails
    exact .inl (.unloaded content unread)
  | uncompiled content fresh loads uncompiled =>
    obtain rfl := Except.error.inj fails
    exact .inl (.uncompiled content fresh loads uncompiled)
  | broken content opens extended failed =>
    obtain rfl := Except.error.inj fails
    refine .inr ⟨_, _, _, _, content, opens, ?_⟩
    rw [Link.sinkOf, extended]
    exact failed
  | final content opens last =>
    refine .inr ⟨_, _, _, _, content, opens, ?_⟩
    rw [Link.sinkOf, last]
    exact fails

/-- Without a level left no template is evaluated. -/
theorem outside_of_no_levels (bare : request.session.layout = none)
    (fails : (request.outcome env 0 root).result = .error failure) : FailsOutside env root 0 request failure := by
  obtain outside | ⟨chain, link, given, statements, content, opens, failed⟩ := outside_or_evaluated bare fails
  · exact outside
  · obtain rfl := Except.error.inj failed
    exact .tooDeep content opens

theorem outside_or_stops (bare : request.session.layout = none)
    (fails : (request.outcome env (levels + 1) root).result = .error failure) :
    FailsOutside env root (levels + 1) request failure ∨
      ∃ link scene culprit cause, Stops env root levels request link scene culprit cause ∧
        failure = scene.report culprit.origin cause := by
  obtain outside | ⟨chain, link, given, statements, content, opens, failed⟩ := outside_or_evaluated bare fails
  · exact .inl outside
  · obtain outside | ⟨culprit, cause, stops, same⟩ := (Runs.intro content opens).outside_or_stops failed
    · exact .inl outside
    · exact .inr ⟨link, _, culprit, cause, stops, same⟩

theorem FailsOutside.fails_with (fails : FailsOutside env root levels request failure) :
    FailsWith env root levels request failure := by
  cases fails with
  | cycle => exact .nowhere rfl rfl rfl
  | tooDeep => exact .nowhere rfl rfl rfl
  | unwritten => exact .nowhere rfl rfl rfl
  | uncompiled content fresh loads uncompiled => exact .uncompiled content fresh loads uncompiled
  | @unloaded _ _ _ given _ _ _ unread =>
    cases given with
    | some text => cases unread
    | none =>
      rcases load_error unread with ⟨path, siblings, rfl⟩ | ⟨path, problem, rfl⟩
      · exact .nowhere rfl rfl rfl
      · exact .nowhere rfl rfl rfl

/-- Every failure of a render is one of these. -/
theorem fails_with (bare : request.session.layout = none)
    (fails : (request.outcome env levels root).result = .error failure) :
    FailsWith env root levels request failure := by
  induction levels generalizing request failure with
  | zero => exact (outside_of_no_levels bare fails).fails_with
  | succ levels ih =>
    obtain outside | ⟨link, scene, culprit, cause, stops, rfl⟩ := outside_or_stops bare fails
    · exact outside.fails_with
    · rcases stops.explains with ⟨-, problem, rfl⟩ | ⟨call, there, failed⟩
      · exact .alone stops
      · exact .inside stops there (ih rfl failed)

/-- The node stands in a text that was compiled under the name of its template, or that a section was captured
from before. -/
theorem Stops.at (stops : Stops env root levels request link scene culprit failure)
    (from_ : request.session.CapturedFrom texts) :
    ∃ text, (texts (culprit.template.getD link.name) text ∨
        Compiles env root (levels + 1) request (culprit.template.getD link.name) text) ∧
      culprit.node.At text culprit.node.line := by
  cases Stmt.filledCulprit_stems stops.culprit with
  | own inside =>
    obtain ⟨compiles, parses⟩ := stops.runs.compiles
    exact ⟨link.source, .inr compiles, Node.at_of_parse parses inside⟩
  | captured found parsesPart inside =>
    obtain ⟨text, template, known, parses, declared⟩ := stops.runs.capturedFrom from_ _ _ found
    exact ⟨text, known, Node.at_of_part parses declared parsesPart inside⟩

/-- The node that a render fails at stands in a text that it compiled. -/
theorem BreaksAt.at {node : Node} {template : String} {problem : Problem}
    (breaks : BreaksAt env root levels request node template problem) (from_ : request.session.CapturedFrom texts) :
    ∃ text, (texts template text ∨ Compiles env root levels request template text) ∧ node.At text node.line := by
  induction breaks generalizing texts with
  | here stops => exact stops.at from_
  | inside stops there _ ih =>
    obtain ⟨text, known, place⟩ := ih (stops.runs.capturedFrom from_).fork
    rcases known with (outside | before) | inner
    · exact ⟨text, .inl outside, place⟩
    · exact ⟨text, .inr before, place⟩
    · exact ⟨text, .inr (.inside stops there inner), place⟩

/-- What a template reports of a failure that names no place. -/
theorem Stops.report_unplaced (stops : Stops env root levels request link scene culprit failure)
    (unplaced : failure.fault.place = none) :
    ∃ listing, scene.report culprit.origin failure =
      ⟨{ problem := failure.fault.problem
         place := some ⟨culprit.template.getD link.name, culprit.node.line⟩
         source := failure.fault.source.or (if culprit.template.isNone then some link.source else none)
         listing }, failure.causes⟩ := by
  obtain ⟨runs, -, -⟩ := stops
  obtain ⟨content, opens⟩ := runs
  exact Scene.report_unplaced unplaced

/-- A render that fails at a node names the template of the node and its line. -/
theorem BreaksAt.outcome_eq {node : Node} {template : String} {problem : Problem}
    (breaks : BreaksAt env root levels request node template problem) (bare : request.session.layout = none) :
    ∃ failure, (request.outcome env levels root).result = .error failure ∧ failure.fault.problem = problem ∧
      failure.fault.place = some ⟨template, node.line⟩ := by
  induction breaks with
  | here stops unplaced =>
    obtain ⟨listing, reported⟩ := stops.report_unplaced unplaced
    exact ⟨_, (stops.outcome_eq bare).trans (congrArg Except.error reported), rfl, rfl⟩
  | inside stops there _ ih =>
    obtain ⟨inner, fails, same, placed⟩ := ih rfl
    obtain ⟨call, there', failed⟩ := (stops.explains).resolve_left fun alone => by
      cases there.symm.trans alone.1
    obtain rfl := Option.some.inj (there.symm.trans there')
    obtain rfl := Except.error.inj (fails.symm.trans failed)
    obtain ⟨listing, reported⟩ := Scene.report_placed placed
    exact ⟨_, (stops.outcome_eq bare).trans (congrArg Except.error reported), same, placed⟩

/-- A failure for values that a template computes with names the node that it comes from. -/
theorem FailsWith.breaks (fails : FailsWith env root levels request failure) :
    (failure.fault.place = none ∧ failure.fault.problem.isOfValues = false) ∨
      failure.fault.problem.isSyntactic = true ∨
      ∃ node template, failure.fault.place = some ⟨template, node.line⟩ ∧
        BreaksAt env root levels request node template failure.fault.problem := by
  induction fails with
  | nowhere unplaced _ other => exact .inl ⟨unplaced, other⟩
  | uncompiled _ _ _ fails => exact .inr (.inl (Compiled.compile_error fails))
  | @alone levels request link scene culprit problem stops =>
    have breaks : BreaksAt env root (levels + 1) request culprit.node _ problem := .here stops rfl
    obtain ⟨listing, reported⟩ := stops.report_unplaced rfl
    rw [reported]
    exact .inr (.inr ⟨_, _, rfl, breaks⟩)
  | @inside levels request link scene culprit failure call stops there _ ih =>
    cases placed : failure.fault.place with
    | none =>
      have breaks : BreaksAt env root (levels + 1) request culprit.node _ _ := .here stops placed
      obtain ⟨listing, reported⟩ := stops.report_unplaced placed
      rw [reported]
      exact .inr (.inr ⟨_, _, rfl, breaks⟩)
    | some place =>
      obtain ⟨listing, reported⟩ := scene.report_placed placed
      rw [reported]
      rcases ih with ⟨unplaced, -⟩ | syntactic | ⟨node, template, same, breaks⟩
      · cases placed.symm.trans unplaced
      · exact .inr (.inl syntactic)
      · exact .inr (.inr ⟨node, template, same, .inside stops there breaks⟩)

theorem textOf_eq_error {outcome : Outcome} : textOf outcome = .error failure ↔ outcome.result = .error failure := by
  unfold textOf
  split
  · rename_i written
    rw [written]
    constructor <;> rintro ⟨⟩
  · rename_i cause failed
    rw [failed, Except.error.injEq, Except.error.injEq]

/-- A render to a writer fails with the failure of the writer or with that of the render. -/
theorem renderTo_eq_error {name : String} {context : Value} {limit : Option Nat} {message : String}
    (fails : (env.renderTo name context limit message).result = .error failure) :
    failure = ⟨{ problem := .writerFailed }, [.io (.writer message)]⟩ ∨
      (env.renderInto name none context (.writer limit [] false)).result = .error failure := by
  unfold renderTo at fails
  dsimp only at fails
  split at fails
  · exact .inr fails
  · split at fails
    · exact .inl (Except.error.inj fails).symm
    · exact .inr fails

/-- Failures point to their source. A render that fails at a tag or at a condition, of a template of its chain, of a
section that fills one, or of a template that it renders for an item, names the template that this stands in and the
line there: the first place that is named stays. Every render that fails for values which are not ordered, or which
cannot be iterated over, fails so, and so does every one whose failure names a place, unless a template or a section
cannot be read. -/
theorem render_places (env : Environment) (name : String) (source : Option String) (context : Value) (sink : Sink) :
    let root := env.rootOf context
    let request : Request := ⟨source, name, root, {}, sink⟩
    let outcome := env.renderInto name source context sink
    (∀ node template problem, BreaksAt env root (maxRenderDepth + 1) request node template problem →
      ∃ failure text, outcome.result = .error failure ∧ failure.fault.problem = problem ∧
        failure.fault.place = some ⟨template, node.line⟩ ∧
        Compiles env root (maxRenderDepth + 1) request template text ∧ node.At text node.line) ∧
    (∀ failure, outcome.result = .error failure →
      (failure.fault.place = none ∧ failure.fault.problem.isOfValues = false) ∨
      failure.fault.problem.isSyntactic = true ∨
      ∃ node template, failure.fault.place = some ⟨template, node.line⟩ ∧
        BreaksAt env root (maxRenderDepth + 1) request node template failure.fault.problem) ∧
    (∀ failure, textOf outcome = .error failure ↔ outcome.result = .error failure) ∧
    ∀ limit message failure, (env.renderTo name context limit message).result = .error failure →
      failure = ⟨{ problem := .writerFailed }, [.io (.writer message)]⟩ ∨
        (env.renderInto name none context (.writer limit [] false)).result = .error failure := by
  intro root request outcome
  have with_ {failure : Failure} (fails : (request.outcome env (maxRenderDepth + 1) root).result = .error failure) :=
    fails_with rfl fails
  refine ⟨fun node template problem breaks => ?_, fun failure fails => (with_ fails).breaks,
    fun failure => textOf_eq_error, fun limit message failure => renderTo_eq_error⟩
  obtain ⟨failure, fails, same, placed⟩ := breaks.outcome_eq rfl
  have nothing : request.session.CapturedFrom fun _ _ => False := nofun
  obtain ⟨text, impossible | compiles, here⟩ := breaks.at nothing
  · exact impossible.elim
  · exact ⟨failure, text, fails, same, placed, compiles, here⟩

/-- A comparison in a section on the fourth line of a page that is rendered for an item, inside of its layout. -/
theorem render_places_section :
    let layout := "\n" ++ Template.tag "fill 'body'"
    let page := Template.tag "extends 'layout'" ++ "\n" ++ Template.tag "section 'body'" ++ "\n\n" ++
      Template.tag "item < 2" ++ Template.tag "endsection"
    let env := ((({} : Environment).addTemplate "layout" layout).addTemplate "page" page).addTemplate "list"
      (Template.tag "each item in items using 'page'")
    let context : Value := .map [("items", .seq [.int 1, .str "one"])]
    let request : Request := ⟨none, "list", env.rootOf context, {}, .text ""⟩
    ∃ failure node text, env.render "list" context = .error failure ∧
      failure.fault.problem = .incomparable .string .number ∧ failure.fault.place = some ⟨"page", 4⟩ ∧
      BreaksAt env request.vars (maxRenderDepth + 1) request node "page" failure.fault.problem ∧
      Compiles env request.vars (maxRenderDepth + 1) request "page" text ∧ node.At text 4 := by
  intro layout page env context request
  obtain ⟨breaks, fails, texts, -⟩ := env.render_places "list" none context (.text "")
  obtain ⟨failure, failed, problem, place⟩ : ∃ failure, env.render "list" context = .error failure ∧
      failure.fault.problem = .incomparable .string .number ∧ failure.fault.place = some ⟨"page", 4⟩ := by
    decide +kernel
  rcases fails failure ((texts failure).mp failed) with ⟨unplaced, -⟩ | syntactic | ⟨node, template, named, broken⟩
  · cases place.symm.trans unplaced
  · rw [problem] at syntactic
    cases syntactic
  · obtain ⟨-, text, -, -, -, compiles, here⟩ := breaks node template _ broken
    have same := Option.some.inj (place.symm.trans named)
    obtain ⟨rfl, line⟩ := Place.mk.inj same
    rw [← line] at here
    exact ⟨failure, node, text, failed, problem, place, broken, compiles, here⟩

end Environment

end TextTemplate
