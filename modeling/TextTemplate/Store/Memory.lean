import TextTemplate.Outline
import TextTemplate.Store.Path
import TextTemplate.Table

/-!
Templates that are held by name.
-/
namespace TextTemplate

structure MemoryStore where
  templates : Table String := {}

namespace MemoryStore

def insert (store : MemoryStore) (name source : String) : MemoryStore :=
  ⟨store.templates.insert name source⟩

def remove (store : MemoryStore) (name : String) : MemoryStore :=
  ⟨store.templates.erase name⟩

def get? (store : MemoryStore) (name : String) : Option String :=
  store.templates.get? name

def isEmpty (store : MemoryStore) : Bool :=
  store.templates.isEmpty

def has (store : MemoryStore) (name : String) : Bool :=
  store.templates.contains name

/-- The templates in the same directory, without its name. -/
def siblings (store : MemoryStore) (name : String) : List String :=
  let directory := (Path.splitDirectory name).1.toList
  (store.templates.names.filterMap fun key => directory.isPrefixOf? key.toList).filterMap fun rest =>
    if rest.contains '/' then none else some (String.ofList rest)

/-- Where a template is looked for. -/
def describe (_store : MemoryStore) (name : String) : String :=
  "<memory>/" ++ name

def outline (store : MemoryStore) : Outline :=
  .record "MemoryStore" [.field "templates" (.map (store.templates.entries.map fun (name, source) =>
    .entry (.quoted name) (.quoted source)))]

end MemoryStore

end TextTemplate
