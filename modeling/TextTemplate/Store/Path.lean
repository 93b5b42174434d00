import TextTemplate.Text.Pieces

/-!
Names of templates as paths. A name cannot leave the directory it is joined to: none of its segments
may be empty, start with a dot or contain a backslash.
-/
namespace TextTemplate.Path

/-- The name up to its last slash, and what follows it. -/
def splitDirectory (name : String) : String × String :=
  let file := (name.toList.reverse.takeWhile (· != '/')).reverse
  (String.ofList (name.toList.take (name.length - file.length)), String.ofList file)

def segments (name : String) : List String :=
  Text.pieces '/' name

def isSafeSegment (segment : String) : Bool :=
  !segment.isEmpty && !segment.startsWith '.' && !segment.toList.contains '\\'

/-- The path of a segment inside a directory. -/
def child (directory segment : String) : String :=
  if directory.isEmpty || directory.endsWith '/' then directory ++ segment
  else directory ++ "/" ++ segment

def join? (base name : String) : Option String :=
  if (segments name).all isSafeSegment then some ((segments name).foldl child base) else none

end TextTemplate.Path
