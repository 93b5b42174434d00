import TextTemplate.Filter.Builtin
import TextTemplate.Store
import TextTemplate.Value.Datum

/-!
What all renders share: templates, global values, filters, and the text that replaces a fragment
that failed.
-/
namespace TextTemplate

structure Environment where
  templates : MemoryStore := {}
  store : Option Store := none
  globals : Fields Value := []
  filters : Table Filter := {}
  fragmentText : Failure → String := fun failure => "[" ++ failure.chainMessage ++ "]"

namespace Environment

def addTemplate (env : Environment) (name source : String) : Environment :=
  { env with templates := env.templates.insert name source }

def removeTemplate (env : Environment) (name : String) : Environment :=
  { env with templates := env.templates.remove name }

def hasTemplate (env : Environment) (name : String) : Bool :=
  env.templates.has name || (env.store.map (·.has name)).getD false

def addGlobal (env : Environment) (name : String) (value : Value) : Environment :=
  { env with globals := env.globals.insert name value }

/-- Adds the entries of a map to the globals. -/
def setGlobals (env : Environment) (values : Value) : Environment :=
  { env with globals := env.globals.insertAll values.settled.entries }

def global? (env : Environment) (name : String) : Option Value :=
  env.globals.get? name

/-- The filter that is part of the language cannot be replaced. -/
def isReservedFilter (name : String) : Bool :=
  name == "default"

def addFilter (env : Environment) (name : String) (filter : Filter) : Environment :=
  if isReservedFilter name then env else { env with filters := env.filters.insert name filter }

/-- Another name for adding a filter. -/
def register (env : Environment) (name : String) (filter : Filter) : Environment :=
  env.addFilter name filter

def removeFilter (env : Environment) (name : String) : Environment :=
  { env with filters := env.filters.erase name }

/-- A filter that was added goes before one that is built in. -/
def filter? (env : Environment) (name : String) : Option Filter :=
  (env.filters.get? name).orElse fun _ => Filter.builtin? name

/-- Unknown filters pass the value through. -/
def applyFilter (env : Environment) (name : String) (v : Value) (argument : Option String) : Value :=
  match env.filter? name with
  | some filter => filter.run v argument
  | none => v

def siblings (env : Environment) (name : String) : List String :=
  let all := env.templates.siblings name ++ (env.store.map (·.siblings name)).getD []
  (all.foldl (fun (table : Table Unit) sibling => table.insert sibling ()) {}).names

def missing (env : Environment) (name : String) : Failure :=
  let path := match env.store with
    | some store => store.describe name
    | none => env.templates.describe name
  .ofProblem (.noTemplate name path (env.siblings name))

/-- The source of a template: one that was added, else one of the store. -/
def load (env : Environment) (name : String) : Except Failure String :=
  match env.templates.get? name with
  | some source => .ok source
  | none =>
    match env.store with
    | none => .error (env.missing name)
    | some store =>
      match store.read name with
      | .error failure => .error failure
      | .ok (some source) => .ok source
      | .ok none => .error (env.missing name)

/-- No more names than this can be loaded. -/
def nameBound (env : Environment) : Nat :=
  env.templates.templates.entries.length + (env.store.map Store.nameBound).getD 0

def outline (env : Environment) : Outline :=
  .record "Environment" [
    .field "globals" (.map (Value.entryOutlines env.globals)),
    .field "filters" (.list (env.filters.names.map .quoted)),
    .field "templates" env.templates.outline,
    .field "has_store" (.atom (toString env.store.isSome))]

end Environment

end TextTemplate
