import TextTemplate.Command.Run

/-!
The command line. A run sees the files below the working directory.
-/
namespace TextTemplate.Main

/-- Reads a file, or a directory with all that lies below it; what cannot be read is left out. -/
partial def readEntry (entry : IO.FS.DirEntry) : IO FileNode := do
  if ← entry.path.isDir then
    let mut entries : List (String × FileNode) := []
    for inner in ← entry.path.readDir do
      try
        entries := Table.insertInto inner.fileName (← readEntry inner) entries
      catch _ => pure ()
    return .directory entries
  else
    return .file (← IO.FS.readBinFile entry.path).toList

/-- Puts a file in place as a whole. -/
def replaceFile (path : String) (bytes : List UInt8) : IO Unit := do
  let draft := path ++ ".tmp"
  IO.FS.writeBinFile draft ⟨bytes.toArray⟩
  IO.FS.rename draft path

def run (arguments : List String) : IO UInt32 := do
  let cwd ← IO.currentDir
  let root ← readEntry ⟨cwd, "."⟩
  let console ←
    if arguments.contains FilePath.console then (·.toList) <$> (← IO.getStdin).readBinToEnd else pure []
  let finished := Command.run cwd.toString ⟨root⟩ console arguments
  match finished.replaced.bind fun path => (finished.files.bytes? path).map fun bytes => (path, bytes) with
  | some (path, bytes) => replaceFile path bytes
  | none => pure ()
  IO.print finished.stdout
  IO.eprint finished.stderr
  return finished.exit.toUInt32

end TextTemplate.Main

def main (arguments : List String) : IO UInt32 :=
  TextTemplate.Main.run arguments
