import TextTemplate.Value.Basic

/-!
Maps put together. Later entries win, and a name stays where it first stood.
-/
namespace TextTemplate.Value

/-- The entries of a map; any other value has none. -/
def entries (v : Value) : Fields Value :=
  v.asMap?.getD []

def mergeFields (vs : List Value) : Fields Value :=
  vs.foldl (fun fields v => fields.insertAll v.entries) []

def merge (vs : List Value) : Value :=
  .map (mergeFields vs)

/-- The map with one more entry. -/
def withEntry (v : Value) (name : String) (value : Value) : Value :=
  .map (Fields.insert v.entries name value)

end TextTemplate.Value
