import TextTemplate.Proofs.Declarations

/-!
Sessions that are changed, forked and cloned. What a session holds is told by its history, which a fork or a
clone shares up to the moment it is made: under each name the text that was captured first, and the layout that
was declared last, unless it was taken or left behind since.
-/
namespace TextTemplate

/-- What happens to a session. -/
inductive SessionEvent
  | declared (layout : String)
  | captured (name text : String)
  | layoutTaken
  | forked

namespace SessionEvent

def apply (session : Session) : SessionEvent → Session
  | .declared layout => session.declareLayout layout
  | .captured name text => (session.captureText name text).1
  | .layoutTaken => session.takeLayout.2
  | .forked => session.fork

/-- The text that is captured under a name. -/
def text? (name : String) : SessionEvent → Option String
  | .captured other text => if other = name then some text else none
  | .declared _ | .layoutTaken | .forked => none

def layout? : SessionEvent → Option String
  | .declared layout => some layout
  | .captured .. | .layoutTaken | .forked => none

/-- Whether the session has no layout then. -/
def dropsLayout : SessionEvent → Bool
  | .layoutTaken | .forked => true
  | .declared _ | .captured .. => false

/-- The text that was captured first under a name. The history starts with the earliest event. -/
def firstText? (history : List SessionEvent) (name : String) : Option String :=
  history.findSome? (text? name)

/-- The layout that was declared last, after it was dropped last. -/
def lastLayout? (history : List SessionEvent) : Option String :=
  (history.reverse.takeWhile fun event => !event.dropsLayout).findSome? layout?

variable {history : List SessionEvent} {name : String}

theorem firstText?_concat (event : SessionEvent) :
    firstText? (history ++ [event]) name = (firstText? history name).or (event.text? name) := by
  rw [firstText?, List.findSome?_append, List.findSome?_singleton, firstText?]

theorem firstText?_isSome : (firstText? history name).isSome = true ↔ ∃ text, .captured name text ∈ history := by
  rw [firstText?, List.findSome?_isSome_iff]
  constructor
  · rintro ⟨event, happened, found⟩
    cases event with
    | captured other text =>
      obtain rfl : other = name := by
        by_contra distinct
        simp [text?, distinct] at found
      exact ⟨text, happened⟩
    | declared | layoutTaken | forked => cases found
  · rintro ⟨text, happened⟩
    exact ⟨_, happened, by simp [text?]⟩

theorem lastLayout?_concat (event : SessionEvent) :
    lastLayout? (history ++ [event]) =
      if event.dropsLayout then none else event.layout?.or (lastLayout? history) := by
  rw [lastLayout?, List.reverse_concat, List.takeWhile_cons]
  cases event <;> rfl

end SessionEvent

open SessionEvent (firstText? lastLayout?)

namespace Session

/-- Under each name a session holds the text that was captured first in its history, and no others; its layout is
the last one. -/
structure Recalls (session : Session) (history : List SessionEvent) : Prop where
  sections : ∀ name, session.section? name = (firstText? history name).map fun text => ⟨"<session>", ⟨text, 1, 0⟩⟩
  sorted : session.sectionNames.Pairwise (· < ·)
  layout : session.layout = lastLayout? history

variable {session : Session} {history : List SessionEvent} {name : String}

theorem recalls_nil : Recalls {} [] :=
  ⟨fun _ => rfl, .nil, rfl⟩

theorem sorted_sectionNames_capture (sorted : session.sectionNames.Pairwise (· < ·)) (captured : CapturedSection) :
    (session.capture name captured).1.sectionNames.Pairwise (· < ·) := by
  rw [capture]
  split
  · exact sorted
  · exact Table.sorted_insertInto sorted

/-- What happens to a session is recalled with its history. -/
theorem Recalls.step (recalls : session.Recalls history) (event : SessionEvent) :
    (event.apply session).Recalls (history ++ [event]) := by
  constructor
  case sections =>
    intro name
    rw [SessionEvent.firstText?_concat]
    cases event with
    | captured other text =>
      have held : ((SessionEvent.captured other text).apply session).section? name =
          (session.section? name).or (if other = name then some ⟨"<session>", ⟨text, 1, 0⟩⟩ else none) := by
        exact section?_capture session other _ name
      rw [held, recalls.sections, Option.map_or, SessionEvent.text?]
      split <;> rfl
    | declared | layoutTaken | forked =>
      simp only [SessionEvent.text?, Option.or_none]
      exact recalls.sections name
  case sorted =>
    cases event with
    | captured other text => exact sorted_sectionNames_capture recalls.sorted _
    | declared | layoutTaken | forked => exact recalls.sorted
  case layout =>
    rw [SessionEvent.lastLayout?_concat]
    cases event with
    | captured other text => exact (layout_capture session other _).trans recalls.layout
    | declared | layoutTaken | forked => rfl

theorem Recalls.fillText (recalls : session.Recalls history) (name : String) :
    session.fillText name = (firstText? history name).getD "" := by
  rw [Session.fillText, recalls.sections, Option.map_map]
  exact congrArg (Option.getD · "") Option.map_id'

theorem Recalls.contains_iff (recalls : session.Recalls history) :
    session.sections.contains name = true ↔ ∃ text, .captured name text ∈ history := by
  have held : session.sections.contains name = (session.section? name).isSome := rfl
  rw [held, recalls.sections, Option.isSome_map, SessionEvent.firstText?_isSome]

theorem Recalls.mem_sectionNames (recalls : session.Recalls history) (name : String) :
    name ∈ session.sectionNames ↔ ∃ text, .captured name text ∈ history :=
  Table.mem_names.trans recalls.contains_iff

theorem Recalls.captureText (recalls : session.Recalls history) (name text : String) :
    (session.captureText name text).2 = true ↔ ∀ earlier, .captured name earlier ∉ history := by
  rw [← not_exists, ← recalls.contains_iff, Session.captureText, capture]
  by_cases held : session.sections.contains name = true
  · simp [held]
  · simp [held]

end Session

/-- An operation on a growing list of sessions: a change of one of them, or one more at the end. -/
inductive SessionOperation
  | declareLayout (i : Nat) (layout : String)
  | capture (i : Nat) (name text : String)
  | takeLayout (i : Nat)
  | fork (i : Nat)
  | clone (i : Nat)

namespace SessionOperation

/-- Carries out an operation on things that can tell what becomes of them when something happens. -/
def apply {α : Type} (become : α → SessionEvent → α) (all : List α) : SessionOperation → List α
  | .declareLayout i layout => all.modify i (become · (.declared layout))
  | .capture i name text => all.modify i (become · (.captured name text))
  | .takeLayout i => all.modify i (become · .layoutTaken)
  | .fork i => all ++ all[i]?.toList.map (become · .forked)
  | .clone i => all ++ all[i]?.toList

/-- The session that is changed; a fork and a clone change none. -/
def target? : SessionOperation → Option Nat
  | .declareLayout i _ | .capture i .. | .takeLayout i => some i
  | .fork _ | .clone _ => none

theorem apply_getElem? {α : Type} (become : α → SessionEvent → α) {all : List α} {operation : SessionOperation}
    {i : Nat} (inside : i < all.length) (other : operation.target? ≠ some i) : (operation.apply become all)[i]? = all[i]? := by
  have distinct {j : Nat} (target : operation.target? = some j) : j ≠ i := by
    rintro rfl
    exact other target
  cases operation with
  | declareLayout | capture | takeLayout => exact List.getElem?_modify_ne _ _ (distinct rfl)
  | fork | clone => exact List.getElem?_append_left inside

section Lockstep

variable {α β : Type} {R : α → β → Prop} {f : α → SessionEvent → α} {g : β → SessionEvent → β} {as : List α}
  {bs : List β}

theorem apply_forall₂ (keeps : ∀ a b event, R a b → R (f a event) (g b event)) (related : List.Forall₂ R as bs)
    (operation : SessionOperation) : List.Forall₂ R (operation.apply f as) (operation.apply g bs) := by
  cases operation with
  | declareLayout i | capture i | takeLayout i => exact forall₂_modify (fun a b => keeps a b _) related i
  | fork i =>
    refine List.rel_append related (List.rel_map ?_ (forall₂_getElem? related i))
    exact fun a b => keeps a b .forked
  | clone i => exact List.rel_append related (forall₂_getElem? related i)

theorem run_forall₂ (keeps : ∀ a b event, R a b → R (f a event) (g b event)) (related : List.Forall₂ R as bs)
    (operations : List SessionOperation) :
    List.Forall₂ R (operations.foldl (apply f) as) (operations.foldl (apply g) bs) :=
  forall₂_foldl (fun _ _ operation related => apply_forall₂ keeps related operation) related operations

end Lockstep

end SessionOperation

namespace Session

/-- The sessions behind some operations, of which those at the start are new. -/
def after (count : Nat) (operations : List SessionOperation) : List Session :=
  operations.foldl (SessionOperation.apply SessionEvent.apply) (List.replicate count {})

/-- What happened to each session behind some operations and to what it comes from, the earliest first. -/
def histories (count : Nat) (operations : List SessionOperation) : List (List SessionEvent) :=
  operations.foldl (SessionOperation.apply fun history event => history ++ [event]) (List.replicate count [])

/-- After any operations every session recalls its own history. -/
theorem Recalls.after (count : Nat) (operations : List SessionOperation) :
    List.Forall₂ Recalls (Session.after count operations) (histories count operations) := by
  refine SessionOperation.run_forall₂ (fun _ _ event recalls => recalls.step event) ?_ operations
  induction count with
  | zero => exact .nil
  | succ count ih => exact .cons recalls_nil ih

/-- After any operations each session holds under a name the text that was captured first in its history, captures
only what was not captured in it, and has the layout that was declared in it last; and no operation changes a
session that it is not carried out on. -/
theorem first_capture_kept (count : Nat) (operations : List SessionOperation) :
    List.Forall₂ (fun session history =>
        (∀ name, session.section? name = (firstText? history name).map fun text => ⟨"<session>", ⟨text, 1, 0⟩⟩) ∧
        (∀ name, session.fillText name = (firstText? history name).getD "") ∧
        (∀ name text, (session.captureText name text).2 = true ↔ ∀ earlier, .captured name earlier ∉ history) ∧
        session.sectionNames.Pairwise (· < ·) ∧
        (∀ name, name ∈ session.sectionNames ↔ ∃ text, .captured name text ∈ history) ∧
        session.layout = lastLayout? history)
      (after count operations) (histories count operations) ∧
    ∀ (operation : SessionOperation) (i : Nat), i < (after count operations).length → operation.target? ≠ some i →
      (after count (operations ++ [operation]))[i]? = (after count operations)[i]? := by
  constructor
  · apply (Recalls.after count operations).imp
    intro session history recalls
    exact ⟨recalls.sections, recalls.fillText, recalls.captureText, recalls.sorted, recalls.mem_sectionNames,
      recalls.layout⟩
  · intro operation i inside other
    rw [after, List.foldl_concat]
    exact SessionOperation.apply_getElem? _ inside other

/-- A fork and a clone keep what was captured before; what is captured or taken behind them stays apart. -/
example :
    (after 1 [.capture 0 "s" "first", .declareLayout 0 "base", .fork 0, .clone 0, .capture 0 "t" "own",
        .capture 1 "t" "forked", .capture 2 "s" "late", .takeLayout 0]).map
      (fun session => (session.fillText "s", session.fillText "t", session.layout)) =
    [("first", "own", none), ("first", "forked", none), ("first", "", some "base")] := by
  decide +kernel

end Session

end TextTemplate
