import TextTemplate.Render.Machine

/-!
Rendering a template inside its layouts. The template runs first, for its sections only; then its
layout runs with these, and the layout of that, until a template has none: only that one writes.
-/
namespace TextTemplate

/-- How deeply partials and fragments nest inside the template that is rendered. -/
def maxRenderDepth : Nat := 100

namespace Chain

/-- Runs a compiled template. -/
abbrev Evaluate := Compiled → Session → Sink → Outcome

def load (env : Environment) (name : String) (source : Option String) : Except Failure String :=
  match source with
  | some text => .ok text
  | none => env.load name

/-- Renders a template and its layouts. A chain is longer than `hops` only if a name comes twice. -/
def run (env : Environment) (evaluate : Evaluate) (hops : Nat) (seen : List String) (name : String)
    (source : Option String) (session : Session) (sink : Sink) : Outcome :=
  match hops with
  | 0 => ⟨sink, .error (.ofProblem (.layoutCycle name))⟩
  | hops + 1 =>
    if seen.contains name then ⟨sink, .error (.ofProblem (.layoutCycle name))⟩
    else
      match load env name source with
      | .error failure => ⟨sink, .error failure⟩
      | .ok text =>
        match Compiled.compile name text session with
        | .error fault => ⟨sink, .error ⟨fault, []⟩⟩
        | .ok (compiled, session) =>
          match session.takeLayout with
          | (none, session) => evaluate compiled session sink
          | (some layout, session) =>
            match (evaluate compiled session .discarding).result with
            | .error failure => ⟨sink, .error failure⟩
            | .ok () => run env evaluate hops (name :: seen) layout none session sink

end Chain

namespace Environment

/-- Renders a template where `levels` more templates may nest; with none left, even the template
itself cannot run. -/
def renderAt (env : Environment) (levels : Nat) (root : Value) (source : Option String) (name : String)
    (vars : Value) (session : Session) (sink : Sink) : Outcome :=
  let evaluate : Chain.Evaluate :=
    match levels with
    | 0 => fun _ _ sink => ⟨sink, .error (.ofProblem .tooDeep)⟩
    | levels + 1 => fun compiled session sink =>
      Machine.run ⟨env, compiled, session, root, vars⟩ (env.renderAt levels root none) 0 [] sink
  Chain.run env evaluate (env.nameBound + 2) [] name source session sink

/-- The name of a template that is given by its source. -/
def sourceName : String := "<string>"

/-- The values a render starts from: the globals and the values of the call, which win. -/
def rootOf (env : Environment) (context : Value) : Value :=
  .merge [.map env.globals, context.settled]

def renderInto (env : Environment) (name : String) (source : Option String) (context : Value) (sink : Sink) :
    Outcome :=
  let root := env.rootOf context
  env.renderAt (maxRenderDepth + 1) root source name root {} sink

def textOf (outcome : Outcome) : Except Failure String :=
  match outcome.result with
  | .ok () => .ok outcome.sink.written
  | .error failure => .error failure

def render (env : Environment) (name : String) (context : Value) : Except Failure String :=
  textOf (env.renderInto name none context (.text ""))

def renderSource (env : Environment) (source : String) (context : Value) : Except Failure String :=
  textOf (env.renderInto sourceName (some source) context (.text ""))

/-- Renders to a writer that takes `limit` bytes and then fails with the given message. -/
def renderTo (env : Environment) (name : String) (context : Value) (limit : Option Nat) (message : String) :
    Outcome :=
  let outcome := env.renderInto name none context (.writer limit [] false)
  match outcome.result with
  | .ok () => outcome
  | .error _ =>
    if outcome.sink.hasFailed then
      { outcome with result := .error ⟨{ problem := .writerFailed }, [.io (.writer message)]⟩ }
    else outcome

def compile (env : Environment) (name : String) : Except Failure Compiled :=
  match env.load name with
  | .error failure => .error failure
  | .ok source =>
    match Compiled.compile name source {} with
    | .error fault => .error ⟨fault, []⟩
    | .ok (compiled, _) => .ok compiled

def compileSource (_env : Environment) (source : String) : Except Failure Compiled :=
  match Compiled.compile sourceName source {} with
  | .error fault => .error ⟨fault, []⟩
  | .ok (compiled, _) => .ok compiled

end Environment

end TextTemplate
