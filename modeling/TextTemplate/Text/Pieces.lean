/-!
The pieces of a text between separators.
-/
namespace TextTemplate.Text

/-- There is one piece more than there are separators; pieces may be empty. -/
def pieces (separator : Char) (s : String) : List String :=
  (s.toList.splitOn separator).map String.ofList

end TextTemplate.Text
