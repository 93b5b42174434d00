import TextTemplate.Command.Report
import TextTemplate.Json.Reading
import TextTemplate.Store.FilePath
import TextTemplate.Store.FileTree
import TextTemplate.Toml.Reading
import TextTemplate.Value.FromJson
import TextTemplate.Yaml.Reading

/-!
Data for a template, from a file or the console. It must be a map; its format has a name or follows
from the extension of the file.
-/
namespace TextTemplate.Command

inductive DataFormat where
  | json
  | toml
  | yaml
  deriving DecidableEq, Repr

namespace DataFormat

def ofName? : String → Option DataFormat
  | "json" => some .json
  | "toml" => some .toml
  | "yaml" => some .yaml
  | _ => none

def ofExtension? : String → Option DataFormat
  | "json" => some .json
  | "toml" => some .toml
  | "yaml" | "yml" => some .yaml
  | _ => none

/-- The format of a name, or that of a path if the name leaves it open. -/
def choose (name path : String) : Except Report DataFormat :=
  if name = "auto" then
    if FilePath.isConsole path then .error (.ofMessage "auto detection does not work with data from stdin")
    else
      match (FilePath.extension? path).bind ofExtension? with
      | some format => .ok format
      | none => .error (.ofMessage "cannot auto detect format from extension")
  else
    match ofName? name with
    | some format => .ok format
    | none => .error (.ofMessage ("unsupported data format '" ++ name ++ "'"))

/-- The value that a text holds; data that cannot be converted is undefined. -/
def read (format : DataFormat) (text : String) : Except Report Value :=
  match format with
  | .json =>
    match Json.read text with
    | .ok document => .ok (.ofJson document)
    | .error e => .error (.ofMessage e.message)
  | .toml =>
    match Toml.read text with
    | .ok document => .ok (.ofDatum document.datum)
    | .error e => .error (.ofMessage e.message)
  | .yaml =>
    match Yaml.read? text with
    | some document => .ok (.ofDatum document.datum)
    | none => .error (.ofMessage "invalid YAML document")

end DataFormat

namespace DataFile

/-- The text of the data. -/
def readText (files : FileTree) (console : List UInt8) (path : String) : Except Report String :=
  if FilePath.isConsole path then
    match Text.decode? console with
    | some text => .ok text
    | none => .error (.because "unable to read data from stdin" IoProblem.notUtf8.message)
  else
    match files.read path with
    | .ok text => .ok text
    | .error problem => .error (.because ("unable to read data file '" ++ path ++ "'") problem.message)

def load (files : FileTree) (console : List UInt8) (format path : String) : Except Report Value := do
  let text ← readText files console path
  let format ← DataFormat.choose format path
  let data ← format.read text
  if data.kind = .map then .ok data
  else .error (.ofMessage ("input data must be a map, got " ++ data.kind.name))

end DataFile

end TextTemplate.Command
