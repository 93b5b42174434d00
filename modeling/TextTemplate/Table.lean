/-!
Named entries sorted by name.
-/
namespace TextTemplate

structure Table (α : Type) where
  entries : List (String × α) := []

namespace Table

variable {α : Type}

def insertInto (name : String) (value : α) : List (String × α) → List (String × α)
  | [] => [(name, value)]
  | (key, old) :: rest =>
    if name < key then (name, value) :: (key, old) :: rest
    else if key = name then (key, value) :: rest
    else (key, old) :: insertInto name value rest

def insert (table : Table α) (name : String) (value : α) : Table α :=
  ⟨insertInto name value table.entries⟩

def erase (table : Table α) (name : String) : Table α :=
  ⟨table.entries.filter fun (key, _) => key != name⟩

def get? (table : Table α) (name : String) : Option α :=
  table.entries.lookup name

def contains (table : Table α) (name : String) : Bool :=
  (table.get? name).isSome

def names (table : Table α) : List String :=
  table.entries.map Prod.fst

def isEmpty (table : Table α) : Bool :=
  table.entries.isEmpty

def ofList (entries : List (String × α)) : Table α :=
  entries.foldl (fun table (name, value) => table.insert name value) {}

end Table

end TextTemplate
