import TextTemplate.Fault

/-!
What the command reports when it fails: a message and the chain of its causes, each with excerpts of
the template if it has some.
-/
namespace TextTemplate.Command

structure ReportLine where
  message : String
  excerpts : String := ""

structure Report where
  main : ReportLine
  causes : List ReportLine := []

namespace ReportLine

/-- The message in a line of its own, then the excerpts. -/
def text (line : ReportLine) : String :=
  let excerpts := line.excerpts.toList.dropWhile (· == '\n')
  line.message ++ "\n" ++ (if excerpts.isEmpty then "" else String.ofList excerpts ++ "\n")

def ofCause : Cause → ReportLine
  | .fault report => ⟨report.message, report.excerpts⟩
  | .io problem => ⟨problem.message, ""⟩

end ReportLine

namespace Report

def ofMessage (message : String) : Report :=
  ⟨⟨message, ""⟩, []⟩

/-- A message in front of what caused it. -/
def because (message cause : String) : Report :=
  ⟨⟨message, ""⟩, [⟨cause, ""⟩]⟩

def ofFailure (failure : Failure) : Report :=
  ⟨⟨failure.fault.message, failure.fault.excerpts⟩, failure.causes.map ReportLine.ofCause⟩

def text (report : Report) : String :=
  "error: " ++ report.main.text ++ String.join (report.causes.map fun cause => "\ncaused by: " ++ cause.text)

end Report

end TextTemplate.Command
