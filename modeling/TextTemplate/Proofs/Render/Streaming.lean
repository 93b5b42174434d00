import TextTemplate.Proofs.Render.Fragments

/-!
Rendering to a writer beside rendering into a text. Up to the piece of output that the writer does
not take as a whole, both renders are in the same state; from there on the one to the writer is over,
and whatever the other still writes is behind what the writer took.
-/
namespace TextTemplate

/-- A writer that takes a part of what it is offered with every call, and none when it fails. -/
structure Writer where
  takes? : (taken offered : List UInt8) → Option Nat

namespace Writer

variable {writer : Writer} {limit : Nat} {taken offered : List UInt8}

/-- Offers what is left again and again until it is taken, or the writer fails or takes nothing. -/
def writeAll (writer : Writer) (taken offered : List UInt8) : List UInt8 × Bool :=
  match offered with
  | [] => (taken, true)
  | byte :: rest =>
    match writer.takes? taken (byte :: rest) with
    | some (n + 1) => writer.writeAll (taken ++ byte :: rest.take n) (rest.drop n)
    | some 0 | none => (taken, false)
termination_by offered.length
decreasing_by
  rw [List.length_drop, List.length_cons]
  omega

/-- It takes bytes with every call until it has a number of them, and fails then. -/
def TakesInTotal (writer : Writer) (limit : Nat) : Prop :=
  ∀ taken offered, offered ≠ [] →
    if taken.length < limit then
      ∃ n, writer.takes? taken offered = some n ∧ 0 < n ∧ n ≤ offered.length ∧ taken.length + n ≤ limit
    else writer.takes? taken offered = none

theorem writeAll_eq (total : writer.TakesInTotal limit) (fits : taken.length ≤ limit) :
    writer.writeAll taken offered =
      (taken ++ offered.take (limit - taken.length), decide (offered.length ≤ limit - taken.length)) := by
  induction length : offered.length using Nat.strongRecOn generalizing taken offered with
  | ind length ih =>
    subst length
    cases offered with
    | nil => simp [writeAll]
    | cons byte rest =>
      have call := total taken (byte :: rest) (List.cons_ne_nil byte rest)
      rw [writeAll]
      by_cases room : taken.length < limit
      · rw [if_pos room] at call
        obtain ⟨n, takes, positive, offers, within⟩ := call
        obtain ⟨n, rfl⟩ := Nat.exists_eq_succ_of_ne_zero (Nat.ne_of_gt positive)
        obtain ⟨more, rfl⟩ : ∃ more, limit = taken.length + (n + 1) + more := ⟨_, (Nat.add_sub_of_le within).symm⟩
        rw [List.length_cons] at offers
        have counted : (taken ++ byte :: rest.take n).length = taken.length + (n + 1) := by
          rw [List.length_append, List.length_cons, List.length_take]
          omega
        have behind : taken.length + (n + 1) + more - (taken.length + (n + 1)) = more := by omega
        have whole : taken.length + (n + 1) + more - taken.length = (n + more) + 1 := by omega
        rw [takes]
        dsimp only
        rw [ih (rest.drop n).length (by rw [List.length_drop, List.length_cons]; omega) (by omega) rfl,
          counted, behind, whole, List.length_drop, List.length_cons, List.take_succ_cons, List.take_add,
          List.append_assoc, List.cons_append]
        congr 2
        exact propext (by omega)
      · rw [if_neg room] at call
        have full : limit - taken.length = 0 := by omega
        rw [call, full, List.take_zero, List.append_nil, List.length_cons, decide_eq_false (by omega)]

/-- Once for all pieces of an output: the sink of a writer is what the calls come to. -/
theorem write_eq (total : writer.TakesInTotal limit) (fits : taken.length ≤ limit) (s : String) :
    (Sink.writer (some (limit - taken.length)) taken false).write s =
      match writer.writeAll taken (Text.bytes s) with
      | (all, true) => ⟨.writer (some (limit - all.length)) all false, .ok ()⟩
      | (all, false) => ⟨.writer (some 0) all true, .error (.ofProblem .formattingFailed)⟩ := by
  rw [writeAll_eq total fits, Sink.write]
  by_cases enough : (Text.bytes s).length ≤ limit - taken.length
  · simp only [if_pos enough, decide_eq_true enough, List.take_of_length_le enough, List.length_append, Nat.sub_sub]
  · simp only [if_neg enough, decide_eq_false enough]

end Writer

namespace Sink

variable {sink after : Sink} {s : String}

theorem write_append (sink : Sink) (s t : String) :
    sink.write (s ++ t) = (sink.write s).andThen fun after => after.write t := by
  cases sink with
  | discarding => rfl
  | text written => simp [write, Outcome.andThen, String.append_assoc]
  | writer room accepted failed =>
    cases room with
    | none => simp [write, Outcome.andThen, Text.bytes_append]
    | some room =>
      rw [write, write, Text.bytes_append, List.length_append]
      by_cases first : (Text.bytes s).length ≤ room
      · rw [if_pos first]
        simp only [Outcome.andThen, write, List.append_assoc, List.take_append, List.take_of_length_le first]
        by_cases second : (Text.bytes t).length ≤ room - (Text.bytes s).length
        · rw [if_pos second, if_pos (by omega), Nat.sub_sub]
        · rw [if_neg second, if_neg (by omega)]
      · rw [if_neg first, if_neg (by omega), List.take_append_of_le_length (by omega)]
        rfl

theorem write_isDiscarding (written : sink.write s = ⟨after, .ok ()⟩) : after.isDiscarding = sink.isDiscarding := by
  cases sink with
  | discarding => cases written; rfl
  | text => cases written; rfl
  | writer room accepted failed =>
    cases room with
    | none => cases written; rfl
    | some room =>
      rw [write] at written
      split at written
      · cases written; rfl
      · cases written

end Sink

namespace Outcome

/-- How a render into a sink compares with the same one into a text: the sink got the text, and both
ended in the same way, or the sink did not take all of the text and so the render failed. -/
inductive Streams (sink : Sink) : Outcome → Outcome → Prop where
  | kept {s : String} {after : Sink} {result : Except Failure Unit} :
    sink.write s = ⟨after, .ok ()⟩ → Streams sink ⟨.text s, result⟩ ⟨after, result⟩
  | cut {s : String} {after : Sink} {result : Except Failure Unit} {full failure : Failure} :
    sink.write s = ⟨after, .error full⟩ → Streams sink ⟨.text s, result⟩ ⟨after, .error failure⟩

variable {sink after : Sink} {s : String} {alone : Outcome} {full failure : Failure}

theorem Streams.write (behind : sink.write s = ⟨after, .ok ()⟩) (t : String) :
    Streams sink ((Sink.text s).write t) (after.write t) := by
  have whole : sink.write (s ++ t) = after.write t := by
    rw [Sink.write_append, behind]
    rfl
  generalize after.write t = streamed at whole
  obtain ⟨last, result⟩ := streamed
  cases result with
  | ok => exact .kept whole
  | error full => exact .cut whole

/-- More text does not change what a sink took that could not take less. -/
theorem Streams.cut_extends (exceeds : sink.write s = ⟨after, .error full⟩) (extended : (Sink.text s).Extends alone.sink) :
    Streams sink alone ⟨after, .error failure⟩ := by
  obtain ⟨last, result⟩ := alone
  obtain ⟨t, rfl⟩ := extended.of_text
  have cut : sink.write (s ++ t) = ⟨after, .error full⟩ := by
    rw [Sink.write_append, exceeds]
    rfl
  exact .cut cut

end Outcome

/-- Renders of other templates that compare so wherever the sink stands. -/
def Nested.Streams (nested : Nested) (sink : Sink) : Prop :=
  ∀ name vars session s after, sink.write s = ⟨after, .ok ()⟩ →
    Outcome.Streams sink (nested name vars session (.text s)) (nested name vars session after)

namespace Machine

def Effect.sink : Effect → Sink
  | .goto _ _ sink | .failed sink _ => sink

variable {scene : Scene} {nested : Nested} {pc : Nat} {stack : List Value} {sink after : Sink} {s : String}
  {instruction : Instruction}

theorem effectOf_sink (outcome : Outcome) : (effectOf pc stack outcome).sink = outcome.sink := by
  obtain ⟨after, result⟩ := outcome
  cases result with
  | ok => rfl
  | error failure => rfl

theorem execute_extends (regular : nested.Regular) (infallible : sink.isInfallible = true) :
    sink.Extends (execute scene nested pc stack sink instruction).sink := by
  have unchanged : sink.Extends sink := .refl infallible
  by_cases quiet : instruction.isQuiet = true
  · rw [execute_quiet quiet nested]
    cases execute scene nested pc stack .discarding instruction with
    | goto => exact unchanged
    | failed => exact unchanged
  cases instruction
  case emitText text => exact (effectOf_sink _).symm ▸ (Outcome.Regular.write infallible text).written
  case emit =>
    cases stack with
    | nil => exact unchanged
    | cons v stack => exact (effectOf_sink _).symm ▸ (Outcome.Regular.write infallible v.display).written
  case includes name => exact (effectOf_sink _).symm ▸ (fragment_regular _ name _ infallible).written
  case embeds name =>
    cases stack with
    | nil => exact unchanged
    | cons v stack => exact (effectOf_sink _).symm ▸ (fragment_regular _ name _ infallible).written
  case each item part =>
    cases stack with
    | nil => exact unchanged
    | cons v stack =>
      simp only [execute]
      cases v.items? with
      | none => exact unchanged
      | some items =>
        have written : sink.Extends (eachItem scene nested item part sink items).sink :=
          (eachItem_regular regular item part items infallible).written
        dsimp only
        generalize eachItem scene nested item part sink items = outcome at written
        obtain ⟨last, result⟩ := outcome
        cases result with
        | ok => exact written
        | error failure => exact written
  all_goals exact absurd rfl quiet

theorem run_extends (regular : nested.Regular) (infallible : sink.isInfallible = true) :
    sink.Extends (run scene nested pc stack sink).sink := by
  induction left : scene.template.listing.instructions.size - pc using Nat.strongRecOn
    generalizing pc stack sink with
  | ind left ih =>
    by_cases inside : pc < scene.template.listing.instructions.size
    · rw [run, dif_pos inside]
      have first : sink.Extends (execute scene nested pc stack sink scene.template.listing.instructions[pc]).sink :=
        execute_extends regular infallible
      generalize execute scene nested pc stack sink scene.template.listing.instructions[pc] = effect at first ⊢
      cases effect with
      | failed => exact first
      | goto target stack written =>
        dsimp only
        by_cases forward : pc < target
        · rw [if_pos forward]
          exact first.trans infallible (ih _ (by omega) (first.infallible infallible) rfl)
        · rw [if_neg forward]
          exact first
    · rw [run, dif_neg inside]
      exact .refl infallible

theorem eachItem_streams (regular : nested.Regular) (streams : nested.Streams sink) (item part : String)
    (items : List Value) (behind : sink.write s = ⟨after, .ok ()⟩) :
    Outcome.Streams sink (eachItem scene nested item part (.text s) items)
      (eachItem scene nested item part after items) := by
  induction items generalizing s after with
  | nil => exact .kept behind
  | cons v items ih =>
    have first := streams part (scene.root.withEntry item v) scene.session.fork s after behind
    rw [eachItem_cons, eachItem_cons]
    generalize nested part (scene.root.withEntry item v) scene.session.fork (.text s) = alone at first ⊢
    generalize nested part (scene.root.withEntry item v) scene.session.fork after = streamed at first ⊢
    cases first with
    | @kept _ _ result behind =>
      cases result with
      | ok => exact ih behind
      | error failure => exact .kept behind
    | @cut t _ result _ _ exceeds =>
      cases result with
      | ok => exact .cut_extends exceeds (eachItem_regular regular item part items rfl).written
      | error failure => exact .cut exceeds

theorem fragment_streams (writes : sink.isDiscarding = false) (tag name : String) (vars : Value)
    (behind : sink.write s = ⟨after, .ok ()⟩) :
    Outcome.Streams sink (fragment scene nested tag name vars (.text s)) (fragment scene nested tag name vars after) := by
  have shown : after.isDiscarding = false := by rw [Sink.write_isDiscarding behind, writes]
  unfold fragment
  rw [if_neg (show ¬(Sink.text s).isDiscarding = true from Bool.false_ne_true),
    if_neg (by rw [shown]; exact Bool.false_ne_true)]
  -- the fragment is rendered on its own in both cases
  generalize nested name vars scene.session.fork (.text "") = inner
  obtain ⟨last, result⟩ := inner
  cases result with
  | ok => exact .write behind _
  | error cause => exact .write behind _

/-- How the effects of one instruction compare. -/
inductive Effect.Streams (sink : Sink) : Effect → Effect → Prop where
  | goto {target : Nat} {stack : List Value} {s : String} {after : Sink} :
    sink.write s = ⟨after, .ok ()⟩ → Streams sink (.goto target stack (.text s)) (.goto target stack after)
  | failed {s : String} {after : Sink} {failure : Failure} :
    sink.write s = ⟨after, .ok ()⟩ → Streams sink (.failed (.text s) failure) (.failed after failure)
  | cut {alone : Effect} {s : String} {after : Sink} {full failure : Failure} :
    alone.sink = .text s → sink.write s = ⟨after, .error full⟩ → Streams sink alone (.failed after failure)

theorem effectOf_streams {alone streamed : Outcome} (streams : Outcome.Streams sink alone streamed) :
    Effect.Streams sink (effectOf pc stack alone) (effectOf pc stack streamed) := by
  cases streams with
  | @kept s after result behind =>
    cases result with
    | ok => exact .goto behind
    | error failure => exact .failed behind
  | @cut s after result full failure exceeds => exact .cut (effectOf_sink _) exceeds

theorem execute_streams (regular : nested.Regular) (streams : nested.Streams sink)
    (writes : sink.isDiscarding = false) (behind : sink.write s = ⟨after, .ok ()⟩) :
    Effect.Streams sink (execute scene nested pc stack (.text s) instruction)
      (execute scene nested pc stack after instruction) := by
  by_cases quiet : instruction.isQuiet = true
  · have first : execute scene nested pc stack (.text s) instruction = _ := execute_quiet quiet nested
    have second : execute scene nested pc stack after instruction = _ := execute_quiet quiet nested
    rw [first, second]
    cases execute scene nested pc stack .discarding instruction with
    | goto => exact .goto behind
    | failed => exact .failed behind
  cases instruction
  case emitText text => exact effectOf_streams (.write behind text)
  case emit =>
    cases stack with
    | nil => exact .failed behind
    | cons v stack => exact effectOf_streams (.write behind v.display)
  case includes name => exact effectOf_streams (fragment_streams writes _ name _ behind)
  case embeds name =>
    cases stack with
    | nil => exact .failed behind
    | cons v stack => exact effectOf_streams (fragment_streams writes _ name _ behind)
  case each item part =>
    cases stack with
    | nil => exact .failed behind
    | cons v stack =>
      simp only [execute]
      cases v.items? with
      | none => exact .failed behind
      | some items =>
        have compared : Outcome.Streams sink (eachItem scene nested item part (.text s) items) _ :=
          eachItem_streams regular streams item part items behind
        dsimp only
        generalize eachItem scene nested item part (.text s) items = alone at compared ⊢
        generalize eachItem scene nested item part after items = streamed at compared ⊢
        cases compared with
        | @kept t last result behind =>
          cases result with
          | ok => exact .goto behind
          | error failure => exact .failed behind
        | @cut t last result full failure exceeds =>
          cases result with
          | ok => exact .cut rfl exceeds
          | error cause => exact .cut rfl exceeds
  all_goals exact absurd rfl quiet

theorem run_streams (regular : nested.Regular) (streams : nested.Streams sink) (writes : sink.isDiscarding = false)
    (behind : sink.write s = ⟨after, .ok ()⟩) :
    Outcome.Streams sink (run scene nested pc stack (.text s)) (run scene nested pc stack after) := by
  induction left : scene.template.listing.instructions.size - pc using Nat.strongRecOn
    generalizing pc stack s after with
  | ind left ih =>
    by_cases inside : pc < scene.template.listing.instructions.size
    · rw [run, run, dif_pos inside, dif_pos inside]
      have compared : Effect.Streams sink
          (execute scene nested pc stack (.text s) scene.template.listing.instructions[pc]) _ :=
        execute_streams regular streams writes behind
      generalize execute scene nested pc stack (.text s) scene.template.listing.instructions[pc] = x at compared ⊢
      generalize execute scene nested pc stack after scene.template.listing.instructions[pc] = y at compared ⊢
      cases compared with
      | failed behind => exact .kept behind
      | @goto target stack t last behind =>
        dsimp only
        by_cases forward : pc < target
        · rw [if_pos forward, if_pos forward]
          exact ih _ (by omega) behind rfl
        · rw [if_neg forward, if_neg forward]
          exact .kept behind
      | @cut x t last full failure written exceeds =>
        cases x with
        | failed written' cause =>
          obtain rfl : written' = .text t := written
          exact .cut exceeds
        | goto target stack written' =>
          obtain rfl : written' = .text t := written
          dsimp only
          by_cases forward : pc < target
          · rw [if_pos forward]
            exact .cut_extends exceeds (run_extends regular rfl)
          · rw [if_neg forward]
            exact .cut exceeds
    · rw [run, run, dif_neg inside, dif_neg inside]
      exact .kept behind

end Machine

theorem Chain.run_streams {env : Environment} {evaluate : Evaluate} {hops : Nat} {seen : List String} {name : String}
    {source : Option String} {session : Session} {sink after : Sink} {s : String}
    (streams : ∀ compiled visible,
      Outcome.Streams sink (evaluate compiled visible (.text s)) (evaluate compiled visible after))
    (behind : sink.write s = ⟨after, .ok ()⟩) :
    Outcome.Streams sink (run env evaluate hops seen name source session (.text s))
      (run env evaluate hops seen name source session after) := by
  induction hops generalizing seen name source session with
  | zero => exact .kept behind
  | succ hops ih =>
    rw [run, run]
    split
    · exact .kept behind
    split
    · exact .kept behind
    split
    · exact .kept behind
    split
    · exact streams _ _
    · split
      · exact .kept behind
      · exact ih

theorem Environment.renderAt_streams (env : Environment) (levels : Nat) (root : Value) (source : Option String)
    (name : String) (vars : Value) (session : Session) {sink after : Sink} {s : String}
    (writes : sink.isDiscarding = false) (behind : sink.write s = ⟨after, .ok ()⟩) :
    Outcome.Streams sink (env.renderAt levels root source name vars session (.text s))
      (env.renderAt levels root source name vars session after) := by
  induction levels generalizing source name vars session s after with
  | zero =>
    rw [renderAt_eq_run, renderAt_eq_run]
    exact Chain.run_streams (fun _ _ => .kept behind) behind
  | succ levels ih =>
    rw [renderAt_eq_run, renderAt_eq_run]
    refine Chain.run_streams (fun compiled visible => ?_) behind
    exact Machine.run_streams
      (fun name vars session sink infallible => env.renderAt_regular levels root none name vars session infallible)
      (fun name vars session s after behind => ih none name vars session behind) writes behind

theorem Sink.write_limited {limit : Option Nat} {s : String} {after : Sink}
    (written : (Sink.writer limit [] false).write s = ⟨after, .ok ()⟩) :
    after.hasFailed = false ∧ after.accepted = Text.bytes s ∧ ∀ room, limit = some room → (Text.bytes s).length ≤ room := by
  cases limit with
  | none =>
    cases written
    exact ⟨rfl, rfl, fun _ impossible => by cases impossible⟩
  | some room =>
    rw [write] at written
    split at written
    · rename_i enough
      cases written
      exact ⟨rfl, rfl, fun _ same => by cases same; exact enough⟩
    · cases written

theorem Sink.write_overrun {limit : Option Nat} {s : String} {after : Sink} {full : Failure}
    (exceeds : (Sink.writer limit [] false).write s = ⟨after, .error full⟩) :
    after.hasFailed = true ∧ ∃ room, limit = some room ∧ room < (Text.bytes s).length ∧
      after.accepted = (Text.bytes s).take room := by
  cases limit with
  | none => cases exceeds
  | some room =>
    rw [write] at exceeds
    split at exceeds
    · cases exceeds
    · rename_i enough
      cases exceeds
      exact ⟨rfl, room, rfl, by omega, rfl⟩

theorem Environment.renderTo_compares (env : Environment) (name : String) (context : Value) (limit : Option Nat)
    (message : String) {s : String} {result : Except Failure Unit}
    (alone : env.renderInto name none context (.text "") = ⟨.text s, result⟩) :
    let streamed := env.renderTo name context limit message
    (streamed.sink.accepted = Text.bytes s ∧ (∀ room, limit = some room → (Text.bytes s).length ≤ room) ∧
      streamed.result = result) ∨
    ∃ room, limit = some room ∧ room < (Text.bytes s).length ∧ streamed.sink.accepted = (Text.bytes s).take room ∧
      streamed.result = .error ⟨{ problem := .writerFailed }, [.io (.writer message)]⟩ := by
  have empty : (Sink.writer limit [] false).write "" = ⟨.writer limit [] false, .ok ()⟩ := by
    cases limit with
    | none => rfl
    | some room => rfl
  have streams : Outcome.Streams (.writer limit [] false) (env.renderInto name none context (.text ""))
      (env.renderInto name none context (.writer limit [] false)) :=
    env.renderAt_streams _ _ none name _ {} rfl empty
  intro streamed
  simp only [streamed, renderTo]
  rw [alone] at streams
  generalize env.renderInto name none context (.writer limit [] false) = outcome at streams ⊢
  cases streams with
  | kept behind =>
    obtain ⟨unfailed, accepted, fits⟩ := Sink.write_limited behind
    refine .inl ?_
    cases result with
    | ok => exact ⟨accepted, fits, rfl⟩
    | error failure =>
      dsimp only
      rw [if_neg (by rw [unfailed]; exact Bool.false_ne_true)]
      exact ⟨accepted, fits, rfl⟩
  | cut exceeds =>
    obtain ⟨failed, room, limited, exceeds, accepted⟩ := Sink.write_overrun exceeds
    refine .inr ⟨room, limited, exceeds, ?_⟩
    dsimp only
    rw [if_pos failed]
    exact ⟨accepted, rfl⟩

/-- Streaming. A writer that takes a number of bytes in total gets what the same render writes into a text, as
far as it takes it; if that is all, the render ends in the same way, and else with a failure to write of which the
writer's own is the cause. It makes no difference how the writer parts what it is offered. -/
theorem Environment.renderTo_streams (env : Environment) (name : String) (context : Value) (message : String) :
    let alone := env.renderInto name none context (.text "")
    let unlimited := env.renderTo name context none message
    ∃ text, alone.sink = .text text ∧
      (∀ limit,
        let streamed := env.renderTo name context (some limit) message
        streamed.sink.accepted = (Text.bytes text).take limit ∧
        streamed.result =
          if (Text.bytes text).length ≤ limit then alone.result
          else .error ⟨{ problem := .writerFailed }, [.io (.writer message)]⟩) ∧
      unlimited.sink.accepted = Text.bytes text ∧ unlimited.result = alone.result ∧
      ∀ (limit : Nat) (writer : Writer), writer.TakesInTotal limit → ∀ taken s, taken.length ≤ limit →
        (Sink.writer (some (limit - taken.length)) taken false).write s =
          match writer.writeAll taken (Text.bytes s) with
          | (all, true) => ⟨.writer (some (limit - all.length)) all false, .ok ()⟩
          | (all, false) => ⟨.writer (some 0) all true, .error (.ofProblem .formattingFailed)⟩ := by
  intro alone unlimited
  have regular : alone.Regular (.text "") := env.renderAt_regular _ _ none name _ {} rfl
  have ends : env.renderInto name none context (.text "") = alone := rfl
  clear_value alone
  obtain ⟨sink, result⟩ := alone
  obtain ⟨text, rfl⟩ : ∃ text, sink = .text text := by
    obtain ⟨text, written⟩ := regular.written.of_text
    exact ⟨_, written⟩
  have taken : unlimited.sink.accepted = Text.bytes text ∧ unlimited.result = result := by
    rcases env.renderTo_compares name context none message ends with ⟨accepted, -, same⟩ | ⟨room, limited, -⟩
    · exact ⟨accepted, same⟩
    · cases limited
  refine ⟨text, rfl, ?_, taken.1, taken.2, fun limit writer total taken s fits => Writer.write_eq total fits s⟩
  intro limit streamed
  rcases env.renderTo_compares name context (some limit) message ends with
    ⟨accepted, fits, same⟩ | ⟨room, limited, exceeds, accepted, failed⟩
  · have enough := fits limit rfl
    rw [if_pos enough, List.take_of_length_le enough]
    exact ⟨accepted, same⟩
  · obtain rfl := Option.some.inj limited
    rw [if_neg (by omega)]
    exact ⟨accepted, failed⟩

/-- A character of two bytes, of which the writer takes the first, from a fragment. -/
theorem Environment.renderTo_streams_cut :
    let env := (({} : Environment).addTemplate "page" ("a" ++ Template.tag "include 'part'" ++ "b")).addTemplate
      "part" "é"
    let writer : Writer := ⟨fun taken _ => if taken.length < 2 then some 1 else none⟩
    let streamed := env.renderTo "page" (.map []) (some 2) "full"
    writer.TakesInTotal 2 ∧ [97].length ≤ 2 ∧
      streamed.sink.accepted = [97, 195] ∧
      streamed.result = .error ⟨{ problem := .writerFailed }, [.io (.writer "full")]⟩ ∧
      (Sink.writer (some 1) [97] false).write "é" =
        ⟨.writer (some 0) [97, 195] true, .error (.ofProblem .formattingFailed)⟩ := by
  intro env writer streamed
  have total : writer.TakesInTotal 2 := by
    intro taken offered some
    have offers : 0 < offered.length := List.length_pos_iff.mpr some
    by_cases room : taken.length < 2
    · rw [if_pos room]
      exact ⟨1, if_pos room, Nat.one_pos, offers, room⟩
    · rw [if_neg room]
      exact if_neg room
  obtain ⟨text, whole, limited, -, -, pieces⟩ := env.renderTo_streams "page" (.map []) "full"
  obtain rfl : text = "aéb" := by
    have written : (env.renderInto "page" none (.map []) (.text "")).sink.written = "aéb" := by decide +kernel
    rw [whole] at written
    exact written
  obtain ⟨accepted, result⟩ := limited 2
  have piece := pieces 2 writer total [97] "é" (by decide)
  have calls : writer.writeAll [97] (Text.bytes "é") = ([97, 195], false) := by
    rw [show Text.bytes "é" = [195, 169] by decide +kernel]
    simp [Writer.writeAll, writer]
  rw [calls] at piece
  refine ⟨total, by decide, accepted.trans (by decide +kernel), result.trans (if_neg (by decide +kernel)), piece⟩

end TextTemplate
