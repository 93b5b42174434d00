/-!
Replacing a mark in a text by another text. The places of the mark do not overlap.
-/
namespace TextTemplate.Text

/-- Replaces a mark that is not empty; `skipped` more characters belong to the last place of it. -/
def substituteFrom (mark new : List Char) : Nat → List Char → List Char
  | _, [] => []
  | skipped + 1, _ :: cs => substituteFrom mark new skipped cs
  | 0, c :: cs =>
    if mark.isPrefixOf (c :: cs) then new ++ substituteFrom mark new (mark.length - 1) cs
    else c :: substituteFrom mark new 0 cs

def substitute (mark new s : String) : String :=
  String.ofList (substituteFrom mark.toList new.toList 0 s.toList)

end TextTemplate.Text
