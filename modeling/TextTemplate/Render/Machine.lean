import TextTemplate.Compiled
import TextTemplate.Environment
import TextTemplate.Render.Sink
import TextTemplate.Value.Order
import TextTemplate.Value.Path

/-!
Running the code of a template. The machine has a stack of values and goes through the instructions
from the first; a jump only leads forward. Other templates are rendered by a function that the
machine is given.
-/
namespace TextTemplate

/-- What the code of one template sees. -/
structure Scene where
  env : Environment
  template : Compiled
  session : Session
  /-- The values of the whole render, which partials start from. -/
  root : Value
  vars : Value

/-- Renders a template by name with the given values. -/
abbrev Nested := (name : String) → (vars : Value) → Session → Sink → Outcome

namespace Machine

/-- What an instruction does to the run. -/
inductive Effect where
  | goto (target : Nat) (stack : List Value) (sink : Sink)
  | failed (sink : Sink) (failure : Failure)

/-- A failure at an instruction, with the place it comes from and the code if it shows code. -/
def located (scene : Scene) (pc : Nat) (failure : Failure) : Failure :=
  let listing := scene.template.listing
  let fault := failure.fault
  let fault :=
    if fault.place.isSome then fault
    else
      let fault := match listing.line? pc with
        | some line => fault.placedAt ⟨(listing.template? pc).getD scene.template.name, line⟩
        | none => fault
      if (listing.template? pc).isNone then fault.withSource scene.template.source else fault
  let fault := if fault.kind = .executionError then fault.withListing scene.template.form else fault
  { failure with fault }

/-- Order of two operands; absent ones and those that are no numbers are not ordered. -/
def ordering (a b : Value) : Except Problem (Option Ordering) :=
  if a.isAbsent || b.isAbsent then .ok none
  else
    match a.compare? b with
    | some order => .ok (some order)
    | none =>
      if a.kind = .number ∧ b.kind = .number then .ok none
      else .error (.incomparable a.kind b.kind)

def holds (test : Ordering → Bool) (order : Option Ordering) : Bool :=
  (order.map test).getD false

/-- The pairs on top of a stack, the deepest first, and the stack below them. -/
def popPairs : Nat → List Value → Option (List (Value × Value) × List Value)
  | 0, stack => some ([], stack)
  | n + 1, value :: key :: stack => (popPairs n stack).map fun (pairs, rest) => (pairs ++ [(key, value)], rest)
  | _ + 1, _ => none

def mapOfPairs (fields : Fields Value) : List (Value × Value) → Except Problem (Fields Value)
  | [] => .ok fields
  | (.str key, value) :: rest => mapOfPairs (fields.insert key value) rest
  | (key, _) :: _ => .error (.keyNoText key.kind)

/-- Renders a template for every item, and stops at the first failure. -/
def eachItem (scene : Scene) (nested : Nested) (name part : String) (sink : Sink) : List Value → Outcome
  | [] => ⟨sink, .ok ()⟩
  | item :: items =>
    let outcome := nested part (scene.root.withEntry name item) scene.session.fork sink
    match outcome.result with
    | .ok () => eachItem scene nested name part outcome.sink items
    | .error _ => outcome

/-- Renders a fragment into a text of its own; if it fails, another text stands in its place. -/
def fragment (scene : Scene) (nested : Nested) (tag name : String) (vars : Value) (sink : Sink) : Outcome :=
  if sink.isDiscarding then ⟨sink, .ok ()⟩
  else
    let inner := nested name vars scene.session.fork (.text "")
    match inner.result with
    | .ok () => sink.write inner.sink.written
    | .error cause => sink.write (scene.env.fragmentText (cause.causing { problem := .brokenFragment tag name }))

def effectOf (pc : Nat) (stack : List Value) (outcome : Outcome) : Effect :=
  match outcome.result with
  | .ok () => .goto (pc + 1) stack outcome.sink
  | .error failure => .failed outcome.sink failure

def execute (scene : Scene) (nested : Nested) (pc : Nat) (stack : List Value) (sink : Sink)
    (instruction : Instruction) : Effect :=
  let next (stack : List Value) : Effect := .goto (pc + 1) stack sink
  let fail (problem : Problem) : Effect := .failed sink (located scene pc (.ofProblem problem))
  let compared (test : Ordering → Bool) : Effect :=
    match stack with
    | b :: a :: stack =>
      match ordering a b with
      | .ok order => next (.bool (holds test order) :: stack)
      | .error problem => fail problem
    | _ => fail .emptyStack
  match instruction with
  | .emitText text => effectOf pc stack (sink.write text)
  | .emit =>
    match stack with
    | a :: stack => effectOf pc stack (sink.write a.display)
    | [] => fail .emptyStack
  | .lookup name => next (scene.vars.member name :: stack)
  | .member name =>
    match stack with
    | a :: stack => next (a.member name :: stack)
    | [] => fail .emptyStack
  | .load value => next (value :: stack)
  | .buildMap pairs =>
    match popPairs pairs stack with
    | some (pairs, stack) =>
      match mapOfPairs [] pairs with
      | .ok fields => next (.map fields :: stack)
      | .error problem => fail problem
    | none => fail .emptyStack
  | .applyFilter name argument =>
    match stack with
    | a :: stack => next (scene.env.applyFilter name a argument :: stack)
    | [] => fail .emptyStack
  | .applyDefault argument =>
    match stack with
    | a :: stack => next (Filter.fallback a (argument.map .str) :: stack)
    | [] => fail .emptyStack
  | .eq =>
    match stack with
    | b :: a :: stack => next (.bool (a.same b) :: stack)
    | _ => fail .emptyStack
  | .ne =>
    match stack with
    | b :: a :: stack => next (.bool (!a.same b) :: stack)
    | _ => fail .emptyStack
  | .lt => compared Ordering.isLT
  | .lte => compared Ordering.isLE
  | .gt => compared Ordering.isGT
  | .gte => compared Ordering.isGE
  | .not =>
    match stack with
    | a :: stack => next (.bool (!a.isTrue) :: stack)
    | [] => fail .emptyStack
  | .jump target => .goto target stack sink
  | .jumpIfFalse target =>
    match stack with
    | a :: stack => if a.isTrue then next stack else .goto target stack sink
    | [] => fail .emptyStack
  | .jumpIfFalseOrPop target =>
    match stack with
    | a :: rest => if a.isTrue then next rest else .goto target stack sink
    | [] => fail .emptyStack
  | .jumpIfTrueOrPop target =>
    match stack with
    | a :: rest => if a.isTrue then .goto target stack sink else next rest
    | [] => fail .emptyStack
  | .each item part =>
    match stack with
    | a :: stack =>
      match a.items? with
      | some items =>
        match effectOf pc stack (eachItem scene nested item part sink items) with
        | .failed sink failure => .failed sink (located scene pc failure)
        | effect => effect
      | none => fail (.notIterable a.kind)
    | [] => fail .emptyStack
  | .includes name => effectOf pc stack (fragment scene nested "include" name scene.vars sink)
  | .embeds name =>
    match stack with
    | a :: stack =>
      effectOf pc stack (fragment scene nested "embed" name (.merge [scene.root, a]) sink)
    | [] => fail .emptyStack

/-- Runs the code from an instruction on. A jump that does not lead forward, which no template has,
ends the run. -/
def run (scene : Scene) (nested : Nested) (pc : Nat) (stack : List Value) (sink : Sink) : Outcome :=
  if inside : pc < scene.template.listing.instructions.size then
    match execute scene nested pc stack sink scene.template.listing.instructions[pc] with
    | .failed sink failure => ⟨sink, .error failure⟩
    | .goto target stack sink =>
      if pc < target then run scene nested target stack sink else ⟨sink, .ok ()⟩
  else ⟨sink, .ok ()⟩
termination_by scene.template.listing.instructions.size - pc

end Machine

end TextTemplate
