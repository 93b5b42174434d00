import TextTemplate.Store.Files
import TextTemplate.Store.Memory

/-!
Where an environment finds the templates that were not added to it.
-/
namespace TextTemplate

inductive Store where
  | memory (store : MemoryStore)
  | files (store : FileStore)

namespace Store

def has : Store → String → Bool
  | .memory store, name => store.has name
  | .files store, name => store.has name

def read : Store → String → Except Failure (Option String)
  | .memory store, name => .ok (store.get? name)
  | .files store, name => store.read name

def siblings : Store → String → List String
  | .memory store, name => store.siblings name
  | .files store, name => store.siblings name

def describe : Store → String → String
  | .memory store, name => store.describe name
  | .files store, name => store.describe name

/-- No more names than this can be read: a file has one name with and one without its extension. -/
def nameBound : Store → Nat
  | .memory store => store.templates.entries.length
  | .files store => 2 * store.tree.root.fileCount

end Store

end TextTemplate
