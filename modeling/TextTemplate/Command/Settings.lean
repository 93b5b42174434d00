import TextTemplate.Command.Arguments
import TextTemplate.Command.Report
import TextTemplate.Environment
import TextTemplate.Json.Reading
import TextTemplate.Text.Substitution
import TextTemplate.Toml.Reading
import TextTemplate.Value.FromJson

/-!
Settings of the command: those of the configuration file, over which the arguments win, and the
variables that the arguments define.
-/
namespace TextTemplate.Command

structure Settings where
  templates : String := "."
  extension : String := ""
  format : String := "auto"
  newline : Bool := true
  /-- The text in place of a fragment that failed. -/
  marker : Option String := none
  globals : List (String × Toml) := []
  defines : Table Value := {}

/-- The configuration file that is used if there is one and no other is given. -/
def defaultConfig : String := "stencil.toml"

namespace Settings

/-- The entry of a table, which may be missing but has one type. -/
def entry {α : Type} (table : List (String × Toml)) (name : String) (default : α) (read? : Toml → Option α) :
    Option α :=
  match table.lookup name with
  | some item => read? item
  | none => some default

def text? : Toml → Option String
  | .text s => some s
  | _ => none

def bool? : Toml → Option Bool
  | .bool b => some b
  | _ => none

def table? : Toml → Option (List (String × Toml))
  | .table entries => some entries
  | _ => none

/-- The settings in a configuration; names that mean nothing are allowed. -/
def ofToml? (config : Toml) : Option Settings := do
  let table ← table? config
  let standard : Settings := {}
  let templates ← entry table "templates" standard.templates text?
  let extension ← entry table "extension" standard.extension text?
  let format ← entry table "format" standard.format text?
  let newline ← entry table "newline" standard.newline bool?
  let marker ← entry table "fragment-marker" standard.marker fun item => (text? item).map some
  let globals ← entry table "globals" standard.globals table?
  some { templates, extension, format, newline, marker, globals }

def readFile (files : FileTree) (path : String) : Except Report Settings :=
  match files.read path with
  | .error problem => .error (.because ("unable to read config file '" ++ path ++ "'") problem.message)
  | .ok text =>
    let invalid := "invalid config file '" ++ path ++ "'"
    match Toml.read text with
    | .error e => .error (.because invalid e.message)
    | .ok config =>
      match ofToml? config with
      | some settings => .ok settings
      | none => .error (.because invalid "an entry has the wrong type")

/-- Reads the file that is given, else the default one if it is there. -/
def load (files : FileTree) (path : Option String) : Except Report Settings :=
  match path with
  | some path => readFile files path
  | none => if files.isFile defaultConfig then readFile files defaultConfig else .ok {}

/-- What follows the first place of a mark in a text, and what precedes it. -/
def splitAt? (mark : List Char) : List Char → Option (List Char × List Char)
  | [] => none
  | c :: cs =>
    if mark.isPrefixOf (c :: cs) then some ([], (c :: cs).drop mark.length)
    else (splitAt? mark cs).map fun (before, after) => (c :: before, after)

/-- The variable that an argument defines: with a JSON value, with a text, or true. -/
def readDefine (argument : String) : Except Report (String × Value) :=
  match splitAt? [':', '='] argument.toList with
  | some (name, raw) =>
    let raw := String.ofList raw
    match Json.read raw with
    | .ok json => .ok (String.ofList name, .ofJson json)
    | .error e => .error (.because ("invalid raw value '" ++ raw ++ "' (not valid JSON)") e.message)
  | none =>
    match splitAt? ['='] argument.toList with
    | some (name, text) => .ok (String.ofList name, .str (String.ofList text))
    | none => .ok (argument, .bool true)

/-- Adds variables; the last define of a name wins. -/
def addDefines (settings : Settings) : List String → Except Report Settings
  | [] => .ok settings
  | argument :: arguments =>
    match readDefine argument with
    | .ok (name, value) => addDefines { settings with defines := settings.defines.insert name value } arguments
    | .error report => .error report

/-- Lets the arguments win. -/
def update (settings : Settings) (arguments : Arguments) : Except Report Settings :=
  addDefines {
    settings with
    templates := arguments.templates.getD settings.templates
    extension := arguments.extension.getD settings.extension
    format := arguments.format.getD settings.format
    newline := settings.newline && !arguments.noNewline } arguments.defines

def store (settings : Settings) (files : FileTree) : FileStore :=
  ({ root := settings.templates, tree := files } : FileStore).withExtension settings.extension

/-- The marker with the messages of a failure in it. -/
def markerText (marker : String) (failure : Failure) : String :=
  Text.substitute "\x7berror\x7d" failure.chainMessage marker

def environment (settings : Settings) (files : FileTree) : Environment :=
  let env := { ({} : Environment) with store := some (.files (settings.store files)) }
  let env := env.setGlobals (.ofDatum (Toml.table settings.globals).datum)
  match settings.marker with
  | some marker => { env with fragmentText := markerText marker }
  | none => env

/-- The values a template starts from: the data, over which the defines win. -/
def context (settings : Settings) (data : Value) : Value :=
  .merge [data, .map settings.defines.entries]

end Settings

end TextTemplate.Command
