import TextTemplate.Store.FileTree
import TextTemplate.Store.Path

/-!
Templates in files below a root directory. A name whose last segment has no dot gets the extension
of the store, if that has one.
-/
namespace TextTemplate

structure FileStore where
  root : String
  extension : Option String := none
  tree : FileTree := {}

namespace FileStore

/-- The store with another extension; dots in front of it do not count. -/
def withExtension (store : FileStore) (extension : String) : FileStore :=
  let bare := extension.toList.dropWhile (· == '.')
  { store with extension := if bare.isEmpty then none else some (String.ofList bare) }

/-- The path of a template; `none` if the name would leave the root. -/
def path? (store : FileStore) (name : String) : Option String :=
  match store.extension with
  | some extension =>
    if (Path.splitDirectory name).2.toList.contains '.' then Path.join? store.root name
    else Path.join? store.root (name ++ "." ++ extension)
  | none => Path.join? store.root name

def has (store : FileStore) (name : String) : Bool :=
  match store.path? name with
  | some path => store.tree.isFile path
  | none => false

/-- The source of a template, `none` if there is no such template. -/
def read (store : FileStore) (name : String) : Except Failure (Option String) :=
  match store.path? name with
  | none => .ok none
  | some path =>
    match store.tree.read path with
    | .ok text => .ok (some text)
    | .error .notFound => .ok none
    | .error problem => .error ⟨{ problem := .unreadable path }, [.io problem]⟩

def siblings (store : FileStore) (name : String) : List String :=
  let directory := ((Path.splitDirectory name).1.toList.reverse.dropWhile (· == '/')).reverse
  let path? := if directory.isEmpty then some store.root else Path.join? store.root (String.ofList directory)
  match path? with
  | some path => (store.tree.fileNames path).filter fun file => !file.startsWith "."
  | none => []

def describe (store : FileStore) (name : String) : String :=
  (store.path? name).getD (name ++ " (invalid template name)")

def outline (store : FileStore) : Outline :=
  .record "FileSystemStore" [.field "root" (.quoted store.root),
    .field "extension" (.option (store.extension.map .quoted))]

end FileStore

end TextTemplate
