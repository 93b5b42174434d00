import TextTemplate.Command.Run
import TextTemplate.Proofs.Command.Defines

/-!
What the command reads before its template: the configuration, what the arguments define, and the data. A
job is prepared just when all of it can be read.
-/
namespace TextTemplate.Command

/-- The data of a run; there is none without a file. -/
def readData (files : FileTree) (console : List UInt8) (arguments : Arguments) (format : String) :
    Except Report Value :=
  match arguments.data with
  | some path => DataFile.load files console format path
  | none => .ok .none

/-- What a run reads before its template: the configuration, the variables that its arguments define, one
after the other, and the data. -/
structure Inputs where
  settings : Settings
  defines : List (String × Value)
  data : Value

namespace Inputs

structure ReadBy (inputs : Inputs) (files : FileTree) (console : List UInt8) (arguments : Arguments) : Prop where
  settings : Settings.load files arguments.config = .ok inputs.settings
  defines : arguments.defines.mapM Settings.readDefine = .ok inputs.defines
  data : readData files console arguments (arguments.format.getD inputs.settings.format) = .ok inputs.data

/-- The variables that are defined, each with the value that it is given last. -/
def defined (inputs : Inputs) : Table Value :=
  ({} : Table Value).insertAll inputs.defines

/-- The settings over which the arguments have won. -/
def updated (inputs : Inputs) (arguments : Arguments) : Settings :=
  { inputs.settings with
    templates := arguments.templates.getD inputs.settings.templates
    extension := arguments.extension.getD inputs.settings.extension
    format := arguments.format.getD inputs.settings.format
    newline := inputs.settings.newline && !arguments.noNewline
    defines := inputs.defined }

def job (inputs : Inputs) (files : FileTree) (arguments : Arguments) : Job :=
  let settings := inputs.updated arguments
  { settings, env := settings.environment files, store := settings.store files
    name := templateName arguments.template
    context := settings.context inputs.data
    dump := arguments.dump
    output := arguments.output.getD FilePath.console }

end Inputs

section Reading

variable {files : FileTree} {console : List UInt8} {arguments : Arguments}

theorem Settings.ofToml?_defines {config : Toml} {settings : Settings} (read : ofToml? config = some settings) :
    settings.defines = {} := by
  simp only [ofToml?, bind, Option.bind_eq_some_iff, Option.some.injEq] at read
  obtain ⟨_, -, _, -, _, -, _, -, _, -, _, -, _, -, rfl⟩ := read
  rfl

/-- A configuration defines nothing. -/
theorem Settings.load_defines {path : Option String} {settings : Settings} (loads : load files path = .ok settings) :
    settings.defines = {} := by
  have readFile_defines (path : String) (reads : readFile files path = .ok settings) : settings.defines = {} := by
    unfold readFile at reads
    split at reads
    · cases reads
    · dsimp only at reads
      split at reads
      · cases reads
      · split at reads
        · rename_i read
          obtain rfl := Except.ok.inj reads
          exact ofToml?_defines read
        · cases reads
  unfold load at loads
  split at loads
  · exact readFile_defines _ loads
  · split at loads
    · exact readFile_defines _ loads
    · rw [← Except.ok.inj loads]

namespace Inputs.ReadBy

variable {inputs : Inputs}

/-- Each part is read by itself, the data in the format that the configuration names if no other one is given. -/
theorem of_parts {settings : Settings} {defines : List (String × Value)} {data : Value}
    (loads : Settings.load files arguments.config = .ok settings)
    (reads : arguments.defines.mapM Settings.readDefine = .ok defines)
    (given : readData files console arguments (arguments.format.getD settings.format) = .ok data) :
    ReadBy ⟨settings, defines, data⟩ files console arguments :=
  ⟨loads, reads, given⟩

theorem updated (read : inputs.ReadBy files console arguments) :
    inputs.settings.update arguments = .ok (inputs.updated arguments) := by
  rw [Settings.update, Settings.addDefines_eq, read.defines]
  show Except.ok _ = _
  dsimp only
  rw [Settings.load_defines read.settings]
  rfl

end Inputs.ReadBy

end Reading

end TextTemplate.Command
