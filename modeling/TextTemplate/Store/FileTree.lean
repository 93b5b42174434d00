import TextTemplate.Fault
import TextTemplate.Table
import TextTemplate.Text.Pieces
import TextTemplate.Text.Utf8

/-!
A directory with the files and directories below it. A path is followed segment by segment: a dot
stays in a directory, two dots lead to the one around it.
-/
namespace TextTemplate

inductive FileNode where
  | file (bytes : List UInt8)
  | directory (entries : List (String × FileNode))
  deriving Inhabited

namespace FileNode

def entries : FileNode → List (String × FileNode)
  | .file _ => []
  | .directory entries => entries

def isFile : FileNode → Bool
  | .file _ => true
  | .directory _ => false

/-- The entry of a name, which may be missing. -/
def child? (node : FileNode) (name : String) : Option FileNode :=
  node.entries.lookup name

/-- The directory with one entry put in place. -/
def withChild (node : FileNode) (name : String) (child : FileNode) : FileNode :=
  .directory (Table.insertInto name child node.entries)

/-- The directory with a node at the end of a path; directories on the way are made. -/
def put (node : FileNode) (new : FileNode) : List String → FileNode
  | [] => new
  | segment :: path => node.withChild segment (((node.child? segment).getD (.directory [])).put new path)

/-- Follows a path from a node; `above` are the directories around it, the nearest first. -/
def follow (above : List FileNode) (node : FileNode) : List String → Except IoProblem FileNode
  | [] => .ok node
  | segment :: path =>
    if node.isFile then .error .notDirectory
    else if segment = "" ∨ segment = "." then follow above node path
    else if segment = ".." then
      match above with
      | [] => .error .notFound
      | outer :: above => follow above outer path
    else
      match node.child? segment with
      | none => .error .notFound
      | some child => follow (node :: above) child path

mutual

/-- The number of files below a node. -/
def fileCount : FileNode → Nat
  | .file _ => 1
  | .directory entries => fileCounts entries

def fileCounts : List (String × FileNode) → Nat
  | [] => 0
  | (_, node) :: rest => fileCount node + fileCounts rest

end

end FileNode

/-- The files that can be reached from a working directory. -/
structure FileTree where
  root : FileNode := .directory []

namespace FileTree

/-- The node a path leads to from the working directory. A path with a NUL in it is not followed. -/
def node? (tree : FileTree) (path : String) : Except IoProblem FileNode :=
  if path.toList.contains '\x00' then .error .nulInName
  else if path.isEmpty ∨ path.startsWith '/' then .error .notFound
  else tree.root.follow [] (Text.pieces '/' path)

def isFile (tree : FileTree) (path : String) : Bool :=
  match tree.node? path with
  | .ok node => node.isFile
  | .error _ => false

def isDirectory (tree : FileTree) (path : String) : Bool :=
  match tree.node? path with
  | .ok node => !node.isFile
  | .error _ => false

/-- The bytes of a file, if there is one. -/
def bytes? (tree : FileTree) (path : String) : Option (List UInt8) :=
  match tree.node? path with
  | .ok (.file bytes) => some bytes
  | _ => none

/-- The text of a file. -/
def read (tree : FileTree) (path : String) : Except IoProblem String :=
  match tree.node? path with
  | .error e => .error e
  | .ok (.directory _) => .error .isDirectory
  | .ok (.file bytes) =>
    match Text.decode? bytes with
    | some text => .ok text
    | none => .error .notUtf8

/-- The names of the files in a directory, sorted. -/
def fileNames (tree : FileTree) (path : String) : List String :=
  match tree.node? path with
  | .ok node => (node.entries.filter (·.2.isFile)).map Prod.fst
  | .error _ => []

def put (tree : FileTree) (path : String) (node : FileNode) : FileTree :=
  ⟨tree.root.put node ((Text.pieces '/' path).filter fun segment => segment != "" && segment != ".")⟩

/-- The steps from the working directory behind one more segment. -/
def takeStep (steps : List String) (segment : String) : List String :=
  if segment = "" ∨ segment = "." then steps
  else if segment = ".." then steps.dropLast
  else steps ++ [segment]

/-- The segments of a path with two dots leading back. -/
def plainSteps (segments : List String) : List String :=
  segments.foldl takeStep []

/-- Puts a whole file at a path, in place of the one that is there. The directory it goes to must be
there, and a directory is not replaced. -/
def replaceFile (tree : FileTree) (path : String) (bytes : List UInt8) : Except IoProblem FileTree :=
  let segments := (Text.pieces '/' path).reverse
  let named := segments.dropWhile (· == "")
  if path.toList.contains '\x00' then .error .nulInName
  else
    match named, tree.root.follow [] named.tail.reverse with
    | [], _ => .error .isDirectory
    | _, .error problem => .error problem
    | _, .ok (.file _) => .error .notDirectory
    | name :: above, .ok (.directory entries) =>
      if name = "." ∨ name = ".." then .error .busy
      else if named.length < segments.length then .error .notDirectory
      else
        match entries.lookup name with
        | some (.directory _) => .error .isDirectory
        | _ => .ok ⟨tree.root.put (.file bytes) (plainSteps (above.reverse ++ [name]))⟩

end FileTree

end TextTemplate
