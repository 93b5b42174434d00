/-!
Named entries in the order of their first insertion.
-/
namespace TextTemplate

abbrev Fields (α : Type) := List (String × α)

namespace Fields

variable {α : Type}

def get? (fields : Fields α) (name : String) : Option α :=
  fields.lookup name

/-- Gives a name its value; a name that is there keeps its place. -/
def insert (fields : Fields α) (name : String) (value : α) : Fields α :=
  match fields with
  | [] => [(name, value)]
  | (key, old) :: rest =>
    if key = name then (key, value) :: rest else (key, old) :: insert rest name value

def insertAll (fields new : Fields α) : Fields α :=
  new.foldl (fun fields (name, value) => fields.insert name value) fields

def names (fields : Fields α) : List String :=
  List.map Prod.fst fields

def values (fields : Fields α) : List α :=
  List.map Prod.snd fields

end Fields

end TextTemplate
