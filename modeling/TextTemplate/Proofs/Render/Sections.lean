import TextTemplate.Proofs.Code.Effects
import TextTemplate.Proofs.Filling
import TextTemplate.Proofs.Render.Layouts

/-!
The sections of a page inside its fragments. A render depends on the session that it starts with
through the sections of the names alone that it asks for. A fragment starts with the sections of the
page around it, so that these stand in place of its own of the same names, and others do not matter.
-/
namespace TextTemplate

theorem Compiled.compile_of_parse {name source : String} {session : Session} {template : Template}
    (parses : Template.parse source name = .ok template) :
    compile name source session =
      match Filled.ofStmts (Stmt.declareAll name session template.children) maxFillDepth template.children with
      | .error fault => .error (fault.placedAt ⟨name, 0⟩)
      | .ok statements =>
        .ok (⟨name, source, .ofStatements statements⟩, Stmt.declareAll name session template.children) := by
  rw [compile, parses]
  rfl

theorem Session.takeLayout_eq (session : Session) : session.takeLayout = (session.layout, session.fork) := rfl

/-- Renders of other templates that all start with the same sections. -/
def Nested.within (nested : Nested) (session : Session) : Nested :=
  fun name vars _ sink => nested name vars session.fork sink

namespace Machine

variable {scene : Scene} {nested other : Nested} {pc : Nat} {stack : List Value} {sink : Sink}
  {instruction : Instruction}

theorem eachItem_within (session : Session) (item part : String) (items : List Value) :
    eachItem { scene with session } nested item part sink items =
      eachItem scene (nested.within session) item part sink items := by
  induction items generalizing sink with
  | nil => rfl
  | cons v items ih =>
    rw [eachItem_cons, eachItem_cons]
    simp only [ih]
    rfl

/-- An instruction only needs the session of its scene for other templates. -/
theorem execute_within (session : Session) :
    execute { scene with session } nested pc stack sink instruction =
      execute scene (nested.within session) pc stack sink instruction := by
  cases instruction
  case each item part =>
    cases stack with
    | nil => rfl
    | cons v stack =>
      simp only [execute, eachItem_within]
      rfl
  all_goals rfl

theorem run_within (session : Session) :
    run { scene with session } nested pc stack sink = run scene (nested.within session) pc stack sink := by
  induction left : scene.template.listing.instructions.size - pc using Nat.strongRecOn
    generalizing pc stack sink with
  | ind left ih =>
    by_cases inside : pc < scene.template.listing.instructions.size
    · rw [run, run, dif_pos inside, dif_pos inside, execute_within]
      cases execute scene (nested.within session) pc stack sink scene.template.listing.instructions[pc] with
      | failed => rfl
      | goto target stack sink =>
        dsimp only
        by_cases forward : pc < target
        · rw [if_pos forward, if_pos forward]
          exact ih _ (by omega) rfl
        · rw [if_neg forward, if_neg forward]
    · rw [run, run, dif_neg inside, dif_neg inside]

/-- What the renders ask for that a run asks for, one after the other. -/
def asked (scene : Scene) (nested : Nested) (ask : Call → List String) (pc : Nat) (stack : List Value) (sink : Sink) :
    List String :=
  if inside : pc < scene.template.listing.instructions.size then
    (calls scene nested stack sink scene.template.listing.instructions[pc]).flatMap ask ++
      match execute scene nested pc stack sink scene.template.listing.instructions[pc] with
      | .failed .. => []
      | .goto target stack sink => if pc < target then asked scene nested ask target stack sink else []
  else []
termination_by scene.template.listing.instructions.size - pc

/-- A run only depends on the answers to what it asks for. -/
theorem run_congr {ask : Call → List String} {Known : String → Prop}
    (answers : ∀ call, (∀ name ∈ ask call, Known name) → call.answer scene other = call.answer scene nested)
    (known : ∀ name ∈ asked scene nested ask pc stack sink, Known name) :
    run scene other pc stack sink = run scene nested pc stack sink := by
  induction left : scene.template.listing.instructions.size - pc using Nat.strongRecOn
    generalizing pc stack sink with
  | ind left ih =>
    by_cases inside : pc < scene.template.listing.instructions.size
    · rw [asked, dif_pos inside] at known
      have same : execute scene other pc stack sink scene.template.listing.instructions[pc] =
          execute scene nested pc stack sink scene.template.listing.instructions[pc] := by
        refine (execute_congr fun call found _ => answers call fun name asks => ?_).1
        exact known name (List.mem_append_left _ (List.mem_flatMap.mpr ⟨call, found, asks⟩))
      rw [run, run, dif_pos inside, dif_pos inside, same]
      cases effect : execute scene nested pc stack sink scene.template.listing.instructions[pc] with
      | failed => rfl
      | goto target after written =>
        rw [effect] at known
        dsimp only at known ⊢
        by_cases forward : pc < target
        · rw [if_pos forward] at known
          rw [if_pos forward, if_pos forward]
          exact ih _ (by omega) (fun name asks => known name (List.mem_append_right _ asks)) rfl
        · rw [if_neg forward, if_neg forward]
    · rw [run, run, dif_neg inside, dif_neg inside]

end Machine

namespace Chain

/-- What the evaluation of a compiled template asks a session for. -/
abbrev Ask := Compiled → Session → Sink → List String

/-- The names of the sections that a render of a template and its layouts asks for, in the fills of
these templates and in what their evaluation renders. -/
def asked (env : Environment) (evaluate : Evaluate) (ask : Ask) (hops : Nat) (seen : List String) (name : String)
    (source : Option String) (session : Session) (sink : Sink) : List String :=
  match hops with
  | 0 => []
  | hops + 1 =>
    if seen.contains name then []
    else
      match load env name source with
      | .error _ => []
      | .ok text =>
        match Template.parse text name with
        | .error _ => []
        | .ok template =>
          let declared := Stmt.declareAll name session template.children
          Filled.asked declared maxFillDepth template.children ++
            match Filled.ofStmts declared maxFillDepth template.children with
            | .error _ => []
            | .ok statements =>
              let compiled : Compiled := ⟨name, text, .ofStatements statements⟩
              match declared.layout with
              | none => ask compiled declared.fork sink
              | some layout =>
                ask compiled declared.fork .discarding ++
                  match (evaluate compiled declared.fork .discarding).result with
                  | .error _ => []
                  | .ok () => asked env evaluate ask hops (name :: seen) layout none declared.fork sink

/-- Sessions with the same layout that hold the same of some sections. -/
structure Agree (names : List String) (session session' : Session) : Prop where
  layout : session.layout = session'.layout
  captured : ∀ name ∈ names, session.section? name = session'.section? name

theorem Agree.part {names some : List String} {session session' : Session} (agree : Agree names session session')
    (part : ∀ name ∈ some, name ∈ names) : Agree some session session' :=
  ⟨agree.layout, fun name found => agree.captured name (part name found)⟩

theorem Agree.declareAll {names : List String} {session session' : Session} (agree : Agree names session session')
    (template : Template) (origin : String) :
    Agree names (Stmt.declareAll origin session template.children) (Stmt.declareAll origin session' template.children) := by
  constructor
  · rw [template.layout_declareAll, template.layout_declareAll, agree.layout]
  · intro name found
    rw [template.section?_declareAll, template.section?_declareAll, agree.captured name found]

theorem Agree.fork {names : List String} {session session' : Session} (agree : Agree names session session') :
    Agree names session.fork session'.fork :=
  ⟨rfl, agree.captured⟩

theorem run_congr {env : Environment} {evaluate : Evaluate} {ask : Ask}
    (evaluates : ∀ {compiled session session' sink}, Agree (ask compiled session sink) session session' →
      evaluate compiled session sink = evaluate compiled session' sink)
    {hops : Nat} {seen : List String} {name : String} {source : Option String} {session session' : Session}
    {sink : Sink} (agree : Agree (asked env evaluate ask hops seen name source session sink) session session') :
    run env evaluate hops seen name source session sink = run env evaluate hops seen name source session' sink := by
  induction hops generalizing seen name source session session' with
  | zero => rfl
  | succ hops ih =>
    rw [asked] at agree
    rw [run, run]
    split
    · rfl
    rename_i fresh
    rw [if_neg fresh] at agree
    cases loads : load env name source with
    | error failure => rfl
    | ok text =>
      rw [loads] at agree
      dsimp only at agree ⊢
      cases parses : Template.parse text name with
      | error fault => rw [Compiled.compile, Compiled.compile, parses]; rfl
      | ok template =>
        rw [parses] at agree
        dsimp only at agree
        have declared := agree.declareAll template name
        have filled := Filled.ofStmts_congr (declared.part fun _ => List.mem_append_left _).captured
        rw [Compiled.compile_of_parse parses, Compiled.compile_of_parse parses, ← filled]
        generalize Stmt.declareAll name session template.children = before at declared filled ⊢
        generalize Stmt.declareAll name session' template.children = after at declared filled ⊢
        cases fills : Filled.ofStmts before maxFillDepth template.children with
        | error fault => rfl
        | ok statements =>
          rw [fills] at declared
          have forked := (declared.part fun _ => List.mem_append_right _).fork
          dsimp only at forked ⊢
          rw [before.takeLayout_eq, after.takeLayout_eq, ← declared.layout]
          cases extended : before.layout with
          | none =>
            rw [extended] at forked
            exact evaluates forked
          | some layout =>
            rw [extended] at forked
            dsimp only at forked ⊢
            have content := evaluates (forked.part fun _ => List.mem_append_left _)
            have behind := forked.part fun _ => List.mem_append_right _
            rw [← content]
            cases succeeds : (evaluate ⟨name, text, .ofStatements statements⟩ before.fork .discarding).result with
            | error failure => rfl
            | ok =>
              rw [succeeds] at behind
              exact ih behind

/-- A template declares a section, or a layout in the chain of its layouts does. -/
inductive Declares (env : Environment) : (start name : String) → Prop where
  | own {start text name : String} {template : Template} :
    env.load start = .ok text → Template.parse text start = .ok template → (template.body? name).isSome = true →
    Declares env start name
  | layout {start text layout name : String} {template : Template} :
    env.load start = .ok text → Template.parse text start = .ok template → template.layout? = some layout →
    Declares env layout name → Declares env start name

theorem declares_iff {env : Environment} {start text name : String} {template : Template}
    (loads : env.load start = .ok text) (parses : Template.parse text start = .ok template) :
    Declares env start name ↔
      (template.body? name).isSome = true ∨ ∃ layout ∈ template.layout?, Declares env layout name := by
  constructor
  · intro declares
    cases declares with
    | own loads' parses' declared =>
      obtain rfl := Except.ok.inj (loads.symm.trans loads')
      obtain rfl := Except.ok.inj (parses.symm.trans parses')
      exact .inl declared
    | layout loads' parses' extended declared =>
      obtain rfl := Except.ok.inj (loads.symm.trans loads')
      obtain rfl := Except.ok.inj (parses.symm.trans parses')
      exact .inr ⟨_, extended, declared⟩
  · rintro (declared | ⟨layout, extended, declared⟩)
    · exact .own loads parses declared
    · exact .layout loads parses extended declared

end Chain

namespace Environment

/-- The names of the sections that a render asks its session for, at any depth. -/
def asked (env : Environment) (levels : Nat) (root : Value) (source : Option String) (name : String) (vars : Value)
    (session : Session) (sink : Sink) : List String :=
  let ask : Chain.Ask :=
    match levels with
    | 0 => fun _ _ _ => []
    | levels + 1 => fun compiled session sink =>
      Machine.asked ⟨env, compiled, session, root, vars⟩ (env.renderAt levels root none)
        (fun call => env.asked levels root none call.name call.vars session.fork call.sink) 0 [] sink
  Chain.asked env (env.evaluateAt levels root vars) ask (env.nameBound + 2) [] name source session sink

/-- A render depends on the sections that it asks for. -/
theorem renderAt_congr (env : Environment) (levels : Nat) (root : Value) (source : Option String) (name : String)
    (vars : Value) {session session' : Session} {sink : Sink}
    (agree : Chain.Agree (env.asked levels root source name vars session sink) session session') :
    env.renderAt levels root source name vars session sink = env.renderAt levels root source name vars session' sink := by
  induction levels generalizing source name vars session session' sink with
  | zero =>
    rw [asked] at agree
    rw [renderAt_eq_run, renderAt_eq_run]
    exact Chain.run_congr (fun _ => rfl) agree
  | succ levels ih =>
    rw [asked] at agree
    rw [renderAt_eq_run, renderAt_eq_run]
    refine Chain.run_congr (fun {compiled before after sink} agree => ?_) agree
    let scene : Scene := ⟨env, compiled, before, root, vars⟩
    let nested : Nested := env.renderAt levels root none
    let answer (call : Machine.Call) : List String :=
      env.asked levels root none call.name call.vars before.fork call.sink
    -- the renders of other templates differ by the sections that they start with
    have answers (call : Machine.Call) (known : ∀ name ∈ answer call, before.section? name = after.section? name) :
        call.answer scene (nested.within after) = call.answer scene nested := by
      have forked : Chain.Agree (answer call) before.fork after.fork := ⟨rfl, known⟩
      exact (ih none call.name call.vars forked).symm
    have other : Machine.run { scene with session := after } nested 0 [] sink =
        Machine.run scene (nested.within after) 0 [] sink := Machine.run_within after
    exact (Machine.run_congr answers agree.captured).symm.trans other.symm

/-- The sections of a page inside a fragment. Where a fragment only asks for sections that its own chain of
layouts declares, what an include of it does depends on the sections of the page around it through those
of the same names alone. In the fragment, each of these stands in place of its own. -/
theorem includes_sections (env : Environment) (levels : Nat) (root vars : Value) (name : String)
    (page other : Session) (compiled compiled' : Compiled)
    (own : ∀ asks ∈ env.asked levels root none name vars page.fork (.text ""), Chain.Declares env name asks)
    (same : ∀ declared, Chain.Declares env name declared → page.section? declared = other.section? declared) :
    (∀ pc stack sink,
      Machine.execute ⟨env, compiled, page, root, vars⟩ (env.renderAt levels root none) pc stack sink (.includes name) =
        Machine.execute ⟨env, compiled', other, root, vars⟩ (env.renderAt levels root none) pc stack sink
          (.includes name)) ∧
    ∀ chain asks, (Chain.sessionOf page.fork chain).section? asks =
      (page.section? asks).or (Chain.sectionOf chain asks) := by
  constructor
  · intro pc stack sink
    have agree : Chain.Agree (env.asked levels root none name vars page.fork (.text "")) page.fork other.fork :=
      ⟨rfl, fun asks found => same asks (own asks found)⟩
    have inserted : env.renderAt levels root none name vars page.fork (.text "") =
        env.renderAt levels root none name vars other.fork (.text "") :=
      env.renderAt_congr levels root none name vars agree
    rw [Machine.execute, Machine.execute, Machine.fragment, Machine.fragment, inserted]
  · intro chain asks
    exact Chain.section?_sessionOf page.fork chain asks

/-- A widget in a frame, on a page that captured a section of another name. -/
theorem includes_sections_widget :
    let frame := "[" ++ Template.tag "fill 'inner'" ++ "]"
    let widget := Template.tag "extends 'frame'" ++ Template.tag "section 'inner'" ++ "widget" ++
      Template.tag "endsection"
    let env := (({} : Environment).addTemplate "frame" frame).addTemplate "widget" widget
    let page := (({} : Session).captureText "title" "page").1
    let nested := env.renderAt maxRenderDepth (.map []) none
    let compiled : Compiled := ⟨"page", "", {}⟩
    env.asked maxRenderDepth (.map []) none "widget" (.map []) page.fork (.text "") = ["inner"] ∧
      Chain.Declares env "widget" "inner" ∧ ¬Chain.Declares env "widget" "title" ∧
      (nested "widget" (.map []) page.fork (.text "")).sink.written = "[widget]" ∧
      Machine.execute ⟨env, compiled, page, .map [], .map []⟩ nested 0 [] (.text "") (.includes "widget") =
        Machine.execute ⟨env, compiled, {}, .map [], .map []⟩ nested 0 [] (.text "") (.includes "widget") := by
  intro frame widget env page nested compiled
  obtain ⟨⟨_, parsesFrame, bare, last⟩, ⟨_, parsesWidget, declared, untitled, extended⟩, asks, written⟩ :
      (∃ template, Template.parse frame "frame" = .ok template ∧ (template.body? "title").isSome = false ∧
        template.layout? = none) ∧
      (∃ template, Template.parse widget "widget" = .ok template ∧ (template.body? "inner").isSome = true ∧
        (template.body? "title").isSome = false ∧ template.layout? = some "frame") ∧
      env.asked maxRenderDepth (.map []) none "widget" (.map []) page.fork (.text "") = ["inner"] ∧
      (nested "widget" (.map []) page.fork (.text "")).sink.written = "[widget]" := by
    decide +kernel
  have inner : Chain.Declares env "widget" "inner" := .own rfl parsesWidget declared
  have title : ¬Chain.Declares env "widget" "title" := by
    rw [Chain.declares_iff rfl parsesWidget]
    rintro (declared | ⟨layout, named, declared⟩)
    · cases untitled.symm.trans declared
    · obtain rfl := Option.some.inj (extended.symm.trans named)
      rcases (Chain.declares_iff rfl parsesFrame).mp declared with declared | ⟨layout, named, -⟩
      · cases bare.symm.trans declared
      · cases last.symm.trans named
  have result := (env.includes_sections maxRenderDepth (.map []) (.map []) "widget" page {} compiled compiled
    (fun asked found => by
      rw [asks] at found
      exact List.mem_singleton.mp found ▸ inner)
    (fun declared declares => by
      have other : "title" ≠ declared := fun same => title (same ▸ declares)
      simp only [page, Session.captureText, Session.section?_capture, if_neg other, Option.or_none])).1
  exact ⟨asks, inner, title, written, result 0 [] (.text "")⟩

/-- A section of the page stands in place of the one that the widget declares. -/
theorem includes_sections_shadowed :
    let frame := "[" ++ Template.tag "fill 'inner'" ++ "]"
    let widget := Template.tag "extends 'frame'" ++ Template.tag "section 'inner'" ++ "widget" ++
      Template.tag "endsection"
    let source := Template.tag "section 'inner'" ++ "page" ++ Template.tag "endsection" ++ "<" ++
      Template.tag "include 'widget'" ++ ">"
    let env := (({} : Environment).addTemplate "frame" frame).addTemplate "widget" widget
    let page := (({} : Session).captureText "inner" "page").1
    let nested := env.renderAt maxRenderDepth (.map []) none
    env.asked maxRenderDepth (.map []) none "widget" (.map []) page.fork (.text "") = ["inner"] ∧
      env.asked maxRenderDepth (.map []) none "widget" (.map []) {} (.text "") = ["inner"] ∧
      Chain.Declares env "widget" "inner" ∧
      (nested "widget" (.map []) page.fork (.text "")).sink.written = "[page]" ∧
      (nested "widget" (.map []) {} (.text "")).sink.written = "[widget]" ∧
      (env.renderSource source (.map [])).toOption = some "<[page]>" := by
  intro frame widget source env page nested
  obtain ⟨⟨_, parses, declared⟩, asks, asks', shadowed, own, shown⟩ :
      (∃ template, Template.parse widget "widget" = .ok template ∧ (template.body? "inner").isSome = true) ∧
      env.asked maxRenderDepth (.map []) none "widget" (.map []) page.fork (.text "") = ["inner"] ∧
      env.asked maxRenderDepth (.map []) none "widget" (.map []) {} (.text "") = ["inner"] ∧
      (nested "widget" (.map []) page.fork (.text "")).sink.written = "[page]" ∧
      (nested "widget" (.map []) {} (.text "")).sink.written = "[widget]" ∧
      (env.renderSource source (.map [])).toOption = some "<[page]>" := by
    decide +kernel
  exact ⟨asks, asks', .own rfl parses declared, shadowed, own, shown⟩

end Environment

end TextTemplate
