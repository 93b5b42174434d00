import TextTemplate.Proofs.Render.Derivation
import TextTemplate.Proofs.Render.Failures

/-!
Every render ends. Code only leads forward, chains of layouts stop at the first name that comes twice,
and what is nested too deeply does not run, so that the rules derive what the renderer computes.
-/
namespace TextTemplate

namespace Listing

theorem target?_retarget (f : Nat → Nat) (instruction : Instruction) :
    (instruction.retarget f).target? = instruction.target?.map f := by
  cases instruction <;> rfl

theorem forward_ofStatements {statements : List Filled} {pc target : Nat} {instruction : Instruction}
    (found : (ofStatements statements).get? pc = some instruction) (jump : instruction.target? = some target) :
    pc < target := by
  rw [get?_ofStatements] at found
  obtain ⟨located, -, rfl⟩ := Option.map_eq_some_iff.mp found
  rw [target?_retarget] at jump
  obtain ⟨distance, -, rfl⟩ := Option.map_eq_some_iff.mp jump
  omega

end Listing

section
variable {env : Environment} {root : Value} {depth : Nat}

theorem Machine.forward {scene : Scene} {nested : Nested} {statements : List Filled} {pc target : Nat}
    {stack after : List Value} {sink written : Sink} {instruction : Instruction}
    (generated : scene.template.listing = .ofStatements statements)
    (found : scene.template.listing.get? pc = some instruction)
    (effect : execute scene nested pc stack sink instruction = .goto target after written) : pc < target := by
  have fits : (execute scene nested pc stack sink instruction).Fits scene pc instruction := execute_fits
  rw [effect] at fits
  rcases fits with rfl | jump
  · exact Nat.lt_succ_self pc
  · rw [generated] at found
    exact Listing.forward_ofStatements found jump

theorem run_derives {scene : Scene} {nested : Nested} {statements : List Filled}
    (generated : scene.template.listing = .ofStatements statements)
    (answered : ∀ call : Machine.Call, ∃ record,
      Derives env root (call.task depth scene) (call.answer scene nested) record)
    (pc : Nat) (stack : List Value) (sink : Sink) :
    ∃ record, Derives env root (.run depth scene pc stack sink) (Machine.run scene nested pc stack sink) record := by
  choose records answered using answered
  induction left : scene.template.listing.instructions.size - pc using Nat.strongRecOn
    generalizing pc stack sink with
  | ind left ih =>
    cases found : scene.template.listing.get? pc with
    | none =>
      rw [Machine.run_end (Array.getElem?_eq_none_iff.mp found)]
      exact ⟨_, .halts found⟩
    | some instruction =>
      have inside := (Array.getElem?_eq_some_iff.mp found).1
      cases effect : Machine.execute scene nested pc stack sink instruction with
      | failed written failure =>
        rw [Machine.run_failed found effect]
        exact ⟨_, .fails found (fun call _ => answered call) effect⟩
      | goto target after written =>
        have forward := Machine.forward generated found effect
        rw [Machine.run_goto found effect forward]
        obtain ⟨later, rest⟩ := ih _ (by omega) target after written rfl
        exact ⟨_, .goes found (fun call _ => answered call) effect rest⟩

namespace Chain

variable {base : Session} {evaluate : Evaluate} {start name : String} {source given : Option String}
  {chain : List Link} {link : Link} {statements : List Filled} {hops : Nat} {vars : Value} {failure : Failure}

theorem prepare_again (seen : name ∈ names chain) :
    prepare env (names chain).reverse name given (sessionOf base chain) =
      .error (.ofProblem (.layoutCycle name)) := by
  rw [prepare, if_pos (List.mem_reverse.mpr seen)]

theorem prepare_unloaded (fresh : name ∉ names chain) (fails : load env name given = .error failure) :
    prepare env (names chain).reverse name given (sessionOf base chain) = .error failure := by
  rw [prepare, if_neg (mt List.mem_reverse.mp fresh), fails]

theorem prepare_uncompiled {text : String} {fault : Fault} (fresh : name ∉ names chain)
    (loads : load env name given = .ok text)
    (fails : Compiled.compile name text (sessionOf base chain) = .error fault) :
    prepare env (names chain).reverse name given (sessionOf base chain) = .error ⟨fault, []⟩ := by
  rw [prepare, if_neg (mt List.mem_reverse.mp fresh), loads]
  simp only [fails, Except.mapError]

theorem Opens.prepare (opens : Opens env base chain given link statements) :
    prepare env (names chain).reverse link.name given (sessionOf base chain) =
      .ok (link.compiled statements, (sessionOf base chain).declared link) := by
  rw [Chain.prepare, if_neg (mt List.mem_reverse.mp opens.fresh), opens.loads]
  simp only [opens.compile, Except.mapError]

/-- The rules derive a render from any template of a chain on, as long as they derive the evaluations. -/
theorem Content.derives (bare : base.layout = none)
    (evaluates : ∀ (link : Link) (statements : List Filled) (visible : Session) (sink : Sink), ∃ record,
      Derives env root (.evaluate depth (link.compiled statements) vars visible sink)
        (evaluate (link.compiled statements) visible sink) record)
    (content : Content env base evaluate start source chain name given)
    (enough : env.nameBound + 2 ≤ hops + chain.length) (sink : Sink) :
    ∃ record, Derives env root (.render depth (names chain).reverse name given vars (sessionOf base chain) sink)
      (run env evaluate hops (names chain).reverse name given (sessionOf base chain) sink) record := by
  induction hops generalizing chain name given with
  | zero =>
    have bounded := content.length_le
    omega
  | succ hops ih =>
    cases next_cases env base chain given name with
    | again seen =>
      rw [run_cycle seen]
      exact ⟨_, .unprepared (prepare_again seen)⟩
    | unloaded fresh fails =>
      rw [run_unloaded fresh fails]
      exact ⟨_, .unprepared (prepare_unloaded fresh fails)⟩
    | uncompiled fresh loads fails =>
      rw [run_uncompiled fresh loads fails]
      exact ⟨_, .unprepared (prepare_uncompiled fresh loads fails)⟩
    | @opens link statements opens =>
      have behind := sessionOf_append base chain link
      cases extended : link.template.layout? with
      | none =>
        obtain ⟨record, derived⟩ := evaluates link statements (sessionOf base (chain ++ [link])) sink
        rw [run_final bare opens extended]
        rw [behind] at derived ⊢
        exact ⟨_, .final opens.prepare (layout_declared_last bare extended) derived⟩
      | some layout =>
        obtain ⟨record, derived⟩ := evaluates link statements (sessionOf base (chain ++ [link])) .discarding
        cases evaluated : (evaluate (link.compiled statements) (sessionOf base (chain ++ [link])) .discarding).result with
        | error failure =>
          rw [run_broken opens extended evaluated]
          rw [behind] at derived evaluated
          exact ⟨_, .broken opens.prepare (layout_declared extended) derived evaluated⟩
        | ok =>
          have longer : env.nameBound + 2 ≤ hops + (chain ++ [link]).length := by
            rw [List.length_append, List.length_singleton]
            omega
          obtain ⟨later, rest⟩ := ih (.next content opens extended evaluated) longer
          have reversed : (names (chain ++ [link])).reverse = link.name :: (names chain).reverse := by simp [names]
          rw [run_content opens extended evaluated]
          rw [reversed, behind] at rest ⊢
          rw [behind] at derived evaluated
          exact ⟨_, .content opens.prepare (layout_declared extended) derived evaluated rest⟩

end Chain

/-- The rules derive what an environment renders where they count the depth that the levels leave. -/
theorem Environment.renderAt_derives (levels : Nat) (left : levels = maxRenderDepth + 1 - depth) (name : String)
    (source : Option String) (vars : Value) (session : Session) (sink : Sink) :
    ∃ record, Derives env root (.render depth [] name source vars session.fork sink)
      (env.renderAt levels root source name vars session.fork sink) record := by
  induction levels generalizing depth name source vars session sink with
  | zero =>
    rw [renderAt_eq_run]
    apply Chain.Content.derives rfl _ .start (Nat.le_refl _) sink
    intro link statements visible sink
    exact ⟨_, .tooDeep (by omega)⟩
  | succ levels ih =>
    rw [renderAt_eq_run]
    apply Chain.Content.derives rfl _ .start (Nat.le_refl _) sink
    intro link statements visible sink
    have answered : ∀ call : Machine.Call, ∃ record,
        Derives env root (call.task depth ⟨env, link.compiled statements, visible, root, vars⟩)
          (call.answer ⟨env, link.compiled statements, visible, root, vars⟩ (env.renderAt levels root none)) record :=
      fun call => ih (by omega) call.name none call.vars visible call.sink
    obtain ⟨record, derived⟩ := run_derives rfl answered 0 [] sink
    exact ⟨_, .starts (by omega) derived⟩

/-- A failure of a run that is an execution error shows the code that ran. -/
theorem Machine.listing_located {scene : Scene} {pc : Nat} {failure : Failure}
    (kind : (located scene pc failure).kind = .executionError) :
    (located scene pc failure).fault.listing.isSome = true := by
  have shown (fault : Fault) : (fault.withListing scene.template.form).listing.isSome = true := by
    unfold Fault.withListing
    split
    · assumption
    · rfl
  -- whatever place the fault was given before
  have last (fault : Fault)
      (kind : (if fault.kind = .executionError then fault.withListing scene.template.form else fault).kind =
        .executionError) :
      (if fault.kind = .executionError then fault.withListing scene.template.form else fault).listing.isSome =
        true := by
    by_cases error : fault.kind = .executionError
    · rw [if_pos error]
      exact shown fault
    · rw [if_neg error] at kind
      exact absurd kind error
  exact last _ kind

theorem Machine.listing_of_run {scene : Scene} {nested : Nested} {pc : Nat} {stack : List Value} {sink : Sink}
    {failure : Failure} (fails : (run scene nested pc stack sink).result = .error failure)
    (kind : failure.kind = .executionError) : failure.fault.listing.isSome = true := by
  induction left : scene.template.listing.instructions.size - pc using Nat.strongRecOn
    generalizing pc stack sink with
  | ind left ih =>
    rw [run] at fails
    split at fails
    · rename_i inside
      have fits : (execute scene nested pc stack sink scene.template.listing.instructions[pc]).Fits scene pc
        scene.template.listing.instructions[pc] := execute_fits
      split at fails
      · rename_i written cause effect
        obtain rfl : cause = failure := Except.error.inj fails
        rw [effect] at fits
        rcases fits with ⟨inner, rfl⟩ | unwritten
        · exact listing_located kind
        · rw [Failure.kind, Fault.kind, unwritten] at kind
          cases kind
      · split at fails
        · exact ih _ (by omega) fails rfl
        · cases fails
    · cases fails

/-- Evaluations fail for layouts that come twice only where other templates are rendered. -/
theorem Environment.evaluateAt_ne_cycle (levels : Nat) (vars : Value) (compiled : Compiled) (visible : Session)
    (sink : Sink) (name : String) :
    (env.evaluateAt levels root vars compiled visible sink).result ≠ .error (.ofProblem (.layoutCycle name)) := by
  intro fails
  cases levels with
  | zero => cases Except.error.inj fails
  | succ levels =>
    have shown := Machine.listing_of_run fails rfl
    cases shown

theorem Environment.renderAt_cycle_iff (levels : Nat) (vars : Value) (start : String) (source : Option String)
    (session : Session) (sink : Sink) (name : String) :
    (env.renderAt levels root source start vars session.fork sink).result =
        .error (.ofProblem (.layoutCycle name)) ↔
      ∃ chain given, Chain.Content env session.fork (env.evaluateAt levels root vars) start source chain name given ∧
        name ∈ Chain.names chain := by
  rw [renderAt_eq_run]
  constructor
  · intro fails
    have ends : Chain.Ends env session.fork (env.evaluateAt levels root vars) start source sink
        (Chain.run env (env.evaluateAt levels root vars) (env.nameBound + 2) [] start source session.fork sink) :=
      Chain.Content.run_ends rfl .start (Nat.le_refl _)
    generalize Chain.run env (env.evaluateAt levels root vars) (env.nameBound + 2) [] start source session.fork
      sink = outcome at fails ends
    cases ends with
    | cycle content again =>
      cases Except.error.inj fails
      exact ⟨_, _, content, again⟩
    | @unloaded chain other given failure content unread =>
      cases given with
      | some text => cases unread
      | none =>
        obtain rfl := Except.error.inj fails
        rcases load_error unread with ⟨path, siblings, same⟩ | ⟨path, problem, same⟩
        · cases same
        · cases same
    | uncompiled content fresh loads fails' =>
      cases Except.error.inj fails
      cases Compiled.compile_error fails'
    | broken content opens extended failed =>
      obtain rfl := Except.error.inj fails
      exact absurd failed (evaluateAt_ne_cycle levels vars _ _ _ name)
    | final content opens last => exact absurd fails (evaluateAt_ne_cycle levels vars _ _ _ name)
  · rintro ⟨chain, given, content, again⟩
    obtain ⟨hops, same⟩ := content.run_eq sink
    rw [same, Chain.run_cycle again]

/-- Every render ends, however templates include, embed, iterate or extend one another. The rules derive
what the renderer computes and nothing else, and in a derivation no template is evaluated more deeply than
the limit. The templates that a render passes on its way to the last layout are at most one more than there
are names, and it fails for a cycle just if it comes back to the name of one of them. -/
theorem Environment.render_terminates (env : Environment) (root : Value) :
    (∀ (depth : Nat) (name : String) (source : Option String) (vars : Value) (session : Session) (sink : Sink),
      let outcome := env.renderAt (maxRenderDepth + 1 - depth) root source name vars session.fork sink
      (∃ record, Derives env root (.render depth [] name source vars session.fork sink) outcome record) ∧
      ∀ other record, Derives env root (.render depth [] name source vars session.fork sink) other record →
        other = outcome ∧ ∀ evaluation ∈ record, evaluation.depth ≤ maxRenderDepth) ∧
    (∀ (levels : Nat) (vars : Value) (start : String) (source : Option String) (session : Session)
      (chain : List Link) (name : String) (given : Option String),
      Chain.Content env session.fork (env.evaluateAt levels root vars) start source chain name given →
      chain.length + 1 ≤ env.nameBound + 2) ∧
    (env.store = none → env.nameBound = env.templates.templates.names.length) ∧
    (∀ (levels : Nat) (vars : Value) (start : String) (source : Option String) (session : Session) (sink : Sink)
      (name : String),
      (env.renderAt levels root source start vars session.fork sink).result =
          .error (.ofProblem (.layoutCycle name)) ↔
        ∃ chain given,
          Chain.Content env session.fork (env.evaluateAt levels root vars) start source chain name given ∧
          name ∈ Chain.names chain) := by
  refine ⟨?_, ?_, ?_, ?_⟩
  · intro depth name source vars session sink outcome
    have derivable : ∃ record, Derives env root (.render depth [] name source vars session.fork sink) outcome record :=
      env.renderAt_derives _ rfl name source vars session sink
    constructor
    · exact derivable
    intro other record derived
    obtain ⟨record', derived'⟩ := derivable
    exact ⟨derived.unique derived', derived.depth_le⟩
  · intro levels vars start source session chain name given content
    exact Nat.succ_le_succ content.length_le
  · intro unstored
    rw [nameBound, unstored, Table.names, List.length_map]
    rfl
  · intro levels vars start source session sink name
    exact env.renderAt_cycle_iff levels vars start source session sink name

/-- Two templates that extend each other, of which one also includes itself. -/
theorem Environment.render_terminates_loop :
    let first := Template.tag "extends 'b'" ++ Template.tag "include 'a'"
    let second := Template.tag "extends 'a'"
    let env := (({} : Environment).addTemplate "a" first).addTemplate "b" second
    let outcome := env.renderAt (maxRenderDepth + 1) (.map []) none "a" (.map []) {} (.text "")
    outcome.result = .error (.ofProblem (.layoutCycle "a")) ∧
      ∃ record, Derives env (.map []) (.render 0 [] "a" none (.map []) {} (.text "")) outcome record := by
  intro first second env outcome
  let evaluate := env.evaluateAt (maxRenderDepth + 1) (.map []) (.map [])
  obtain ⟨firstLeads, secondLeads⟩ : Chain.leadsTo evaluate {} [] "a" first "b" = true ∧
      Chain.leadsTo evaluate {} [.ofSource "a" first] "b" second "a" = true := by
    decide +kernel
  have contentFirst : Chain.Content env {} evaluate "a" none _ "b" none :=
    Chain.Content.start.of_leadsTo (by decide) rfl firstLeads
  have contentSecond : Chain.Content env {} evaluate "a" none _ "a" none :=
    contentFirst.of_leadsTo (by decide) rfl secondLeads
  obtain ⟨ends, -, -, cycles⟩ := env.render_terminates (.map [])
  refine ⟨?_, (ends 0 "a" none (.map []) {} (.text "")).1⟩
  exact (cycles (maxRenderDepth + 1) (.map []) "a" none {} (.text "") "a").mpr
    ⟨_, _, contentSecond, List.mem_cons_self⟩

end

end TextTemplate
