import TextTemplate.Outline
import TextTemplate.Problem
import TextTemplate.Text.Lines

/-!
Reports of problems: the place in a template, the source around it and the code that ran. A failure
is a report with the chain of its causes, of which the last may be a failure of a file or a writer.
-/
namespace TextTemplate

structure Place where
  template : String
  line : Nat
  deriving DecidableEq, Repr

structure Fault where
  problem : Problem
  place : Option Place := none
  source : Option String := none
  listing : Option String := none
  deriving Repr

inductive IoProblem where
  | notUtf8
  | isDirectory
  | notDirectory
  | notFound
  | nulInName
  | busy
  | writer (message : String)
  deriving DecidableEq, Repr

inductive Cause where
  | fault (fault : Fault)
  | io (problem : IoProblem)
  deriving Repr

structure Failure where
  fault : Fault
  causes : List Cause := []
  deriving Repr

namespace Excerpt

def width : Nat := 74

def dashes (n : Nat) : String :=
  String.ofList (List.replicate n '-')

/-- A text in the middle of a line of dashes, the longer side on the right. -/
def rule (title : String) : String :=
  let free := width - title.length
  dashes (free / 2) ++ title ++ dashes (free - free / 2)

def padLeft (width : Nat) (s : String) : String :=
  String.ofList (List.replicate (width - s.length) ' ') ++ s

def numbered (mark : String) (index : Nat) (line : String) : String :=
  padLeft 4 (toString (index + 1)) ++ " " ++ mark ++ " " ++ line ++ "\n"

/-- The lines before and after the one that is marked. -/
def around : Nat := 3

/-- The lines around one line of a source, which may also be given as line 0 if it is the first;
nothing if there is no such line. -/
def ofSource (source : String) (line : Nat) : String :=
  let lines := (Text.lines source.toList).map String.ofList
  let index := line - 1
  match lines[index]? with
  | none => ""
  | some marked =>
    let start := index - around
    let before := ((lines.drop start).take (index - start)).mapIdx fun i text => numbered "|" (start + i) text
    let after := ((lines.drop (index + 1)).take around).mapIdx fun i text => numbered "|" (index + 1 + i) text
    "\n" ++ rule " Template Source " ++ "\n" ++ String.join before ++ numbered ">" index marked
      ++ String.join after ++ rule ""

def ofListing (listing : String) : String :=
  "\n" ++ rule " Compiled Template " ++ "\n" ++ listing ++ "\n" ++ rule ""

end Excerpt

namespace Fault

def kind (fault : Fault) : FaultKind :=
  fault.problem.kind

def detail? (fault : Fault) : Option String :=
  fault.problem.detail?

def message (fault : Fault) : String :=
  let detail := match fault.detail? with
    | some detail => ": " ++ detail
    | none => ""
  let available :=
    if fault.problem.siblings.isEmpty then ""
    else " (available: " ++ ", ".intercalate fault.problem.siblings ++ ")"
  let place := match fault.place with
    | some place => " (in " ++ place.template ++ ":" ++ toString place.line ++ ")"
    | none => ""
  fault.kind.text ++ detail ++ available ++ place

/-- The excerpts that follow the message in its long form. -/
def excerpts (fault : Fault) : String :=
  let line := (fault.place.map Place.line).getD 0
  let source := match fault.source with
    | some source => Excerpt.ofSource source line
    | none => ""
  let listing := match fault.listing with
    | some listing => Excerpt.ofListing listing
    | none => ""
  source ++ listing

def longMessage (fault : Fault) : String :=
  fault.message ++ fault.excerpts

def fields (fault : Fault) : List Outline :=
  let detail := match fault.detail? with
    | some detail => [Outline.field "detail" (.quoted detail)]
    | none => []
  let place := match fault.place with
    | some place => [.field "name" (.quoted place.template), .field "line" (.nat place.line)]
    | none => []
  .field "kind" (.atom fault.kind.listing) :: (detail ++ place)

/-- Names the place of a fault that has none yet. -/
def placedAt (fault : Fault) (place : Place) : Fault :=
  if fault.place.isSome then fault else { fault with place := some place }

def withSource (fault : Fault) (source : String) : Fault :=
  if fault.source.isSome then fault else { fault with source := some source }

def withListing (fault : Fault) (listing : String) : Fault :=
  if fault.listing.isSome then fault else { fault with listing := some listing }

end Fault

namespace IoProblem

def message : IoProblem → String
  | .notUtf8 => "stream did not contain valid UTF-8"
  | .isDirectory => "Is a directory (os error 21)"
  | .notDirectory => "Not a directory (os error 20)"
  | .notFound => "No such file or directory (os error 2)"
  | .nulInName => "file name contained an unexpected NUL byte"
  | .busy => "Device or resource busy (os error 16)"
  | .writer message => message

end IoProblem

namespace Cause

def message : Cause → String
  | .fault report => report.message
  | .io problem => problem.message

def fault? : Cause → Option Fault
  | .fault report => some report
  | .io _ => none

end Cause

namespace Failure

def ofProblem (problem : Problem) : Failure :=
  ⟨{ problem }, []⟩

/-- A new report that a failure is the cause of. -/
def causing (failure : Failure) (fault : Fault) : Failure :=
  ⟨fault, .fault failure.fault :: failure.causes⟩

def kind (failure : Failure) : FaultKind :=
  failure.fault.kind

def chainOutline (fault : Fault) : List Fault → Outline
  | [] => .record "Error" fault.fields
  | cause :: causes => .record "Error" (fault.fields ++ [.field "source" (chainOutline cause causes)])

/-- The structured form, unless a cause is no report. -/
def outline? (failure : Failure) : Option Outline :=
  (failure.causes.mapM Cause.fault?).map (chainOutline failure.fault)

/-- The message and those of all causes. -/
def chainMessage (failure : Failure) : String :=
  ": ".intercalate (failure.fault.message :: failure.causes.map Cause.message)

end Failure

end TextTemplate
