import TextTemplate.Text.Pieces

/-!
Paths of files as a user writes them. Single dots and doubled slashes do not count as steps.
-/
namespace TextTemplate.FilePath

def isStep (segment : String) : Bool :=
  segment != "" && segment != "."

def steps (path : String) : List String :=
  (Text.pieces '/' path).filter isStep

/-- What follows the last dot of the file name; a dot in front does not start an extension. -/
def extension? (path : String) : Option String := do
  let name ← (steps path).getLast?
  let after := (name.toList.reverse.takeWhile (· != '.')).reverse
  if name = ".." ∨ name.length ≤ after.length + 1 then none else some (String.ofList after)

/-- The name of the console instead of a file. -/
def console : String := "-"

def isConsole (path : String) : Bool :=
  steps path == [console] && !path.startsWith "/" && !path.startsWith "."

/-- Drops what does not count at the end of a path. -/
def trimSegments (segments : List String) : List String :=
  (segments.reverse.dropWhile fun segment => !isStep segment).reverse

/-- The directory a path lies in, up to dots and slashes at its end. -/
def parentSegments (path : String) : List String :=
  trimSegments (trimSegments (Text.pieces '/' path)).dropLast

end TextTemplate.FilePath
