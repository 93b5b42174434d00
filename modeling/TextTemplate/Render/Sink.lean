import TextTemplate.Fault
import TextTemplate.Text.Utf8

/-!
Where the text of a render goes: nowhere, into a text, or to a writer that takes a number of bytes
and then fails.
-/
namespace TextTemplate

inductive Sink where
  | discarding
  | text (written : String)
  /-- `room` is how many more bytes the writer takes, if there is a limit. -/
  | writer (room : Option Nat) (accepted : List UInt8) (failed : Bool)

/-- The state of the sink behind a render, and how the render ended. -/
structure Outcome where
  sink : Sink
  result : Except Failure Unit

namespace Sink

def isDiscarding : Sink → Bool
  | .discarding => true
  | _ => false

/-- What was written to a text. -/
def written : Sink → String
  | .text written => written
  | _ => ""

/-- What a writer took. -/
def accepted : Sink → List UInt8
  | .writer _ accepted _ => accepted
  | _ => []

def hasFailed : Sink → Bool
  | .writer _ _ failed => failed
  | _ => false

/-- A writer takes as much as it has room for. -/
def write (sink : Sink) (s : String) : Outcome :=
  match sink with
  | .discarding => ⟨.discarding, .ok ()⟩
  | .text written => ⟨.text (written ++ s), .ok ()⟩
  | .writer none accepted failed => ⟨.writer none (accepted ++ Text.bytes s) failed, .ok ()⟩
  | .writer (some room) accepted failed =>
    let bytes := Text.bytes s
    if bytes.length ≤ room then ⟨.writer (some (room - bytes.length)) (accepted ++ bytes) failed, .ok ()⟩
    else ⟨.writer (some 0) (accepted ++ bytes.take room) true, .error (.ofProblem .formattingFailed)⟩

end Sink

end TextTemplate
