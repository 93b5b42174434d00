import TextTemplate.Command.DataFile
import TextTemplate.Command.Settings
import TextTemplate.Render.Chain

/-!
The command as a function of its arguments, the files it sees and the text on the console. What a
run writes to a file appears as a whole when the run has succeeded; nothing else changes a file.
-/
namespace TextTemplate.Command

/-- How a run ends: its exit code, what it wrote to the console, the files behind it, and the path of
the one that was replaced. -/
structure Finished where
  exit : Nat
  stdout : String := ""
  stderr : String := ""
  files : FileTree
  replaced : Option String := none

/-- Text that was produced, perhaps up to a failure. -/
structure Product where
  text : String
  failure : Option Report := none

namespace Product

def ofResult : Except Report String → Product
  | .ok text => ⟨text, none⟩
  | .error report => ⟨"", some report⟩

end Product

/-- A template with all that it takes to render it. -/
structure Job where
  settings : Settings
  env : Environment
  store : FileStore
  name : String
  context : Value
  dump : Option DumpKind
  output : String

namespace Job

def missing (job : Job) : Report :=
  .ofMessage ("template '" ++ job.name ++ "' does not exist")

def source (job : Job) : Except Report String :=
  match job.store.read job.name with
  | .error failure => .error (.ofFailure failure)
  | .ok (some source) => .ok source
  | .ok none => .error job.missing

/-- A line for every token, up to the first problem. -/
def tokens (job : Job) : Product :=
  match job.source with
  | .error report => ⟨"", some report⟩
  | .ok source =>
    let lexemes := Source.lexemes source
    ⟨String.join (lexemes.tokens.map fun lexeme => lexeme.token.outline.compact ++ "\n"),
      lexemes.problem.map fun problem => .ofFailure (.ofProblem problem)⟩

def ast (job : Job) : Except Report String := do
  let source ← job.source
  match Template.parse source job.name with
  | .ok template => .ok (template.outline.indented ++ "\n")
  | .error fault => .error (.ofFailure ⟨fault, []⟩)

def instructionLine (index : Nat) (instruction : Instruction) : String :=
  "  " ++ Excerpt.padLeft 4 (toString index) ++ ": " ++ instruction.outline.compact ++ "\n"

def instructions (job : Job) : Except Report String :=
  match job.env.compile job.name with
  | .ok compiled =>
    .ok ("Template: " ++ Text.quoted job.name ++ "\n"
      ++ String.join (compiled.listing.instructions.toList.mapIdx instructionLine))
  | .error failure => .error (.ofFailure failure)

def rendered (job : Job) : Except Report String :=
  match job.env.render job.name job.context with
  | .ok text => .ok (if job.settings.newline then text ++ "\n" else text)
  | .error failure => .error (.ofFailure failure)

def product (job : Job) : Product :=
  match job.dump with
  | some .tokens => job.tokens
  | some .ast => .ofResult job.ast
  | some .instructions => .ofResult job.instructions
  | none => .ofResult job.rendered

end Job

/-- Names of templates have slashes between their segments. -/
def templateName (argument : String) : String :=
  argument.map fun c => if c = '\\' then '/' else c

/-- Everything that comes before the output is opened. -/
def prepare (files : FileTree) (console : List UInt8) (arguments : Arguments) : Except Report Job := do
  let settings ← Settings.load files arguments.config
  let settings ← settings.update arguments
  let data ← match arguments.data with
    | some path => DataFile.load files console settings.format path
    | none => .ok .none
  .ok {
    settings, env := settings.environment files, store := settings.store files
    name := templateName arguments.template
    context := settings.context data
    dump := arguments.dump
    output := arguments.output.getD FilePath.console }

/-- A path in the working directory, whose own path is `cwd`. -/
def absolutePath (cwd path : String) : String :=
  if path.startsWith "/" then path else cwd ++ "/" ++ path

/-- The directory of a file in the working directory. -/
def parentPath (cwd path : String) : String :=
  "/".intercalate (FilePath.parentSegments (absolutePath cwd path))

/-- Checks that the directory of an output file is there; the one around the working directory is. -/
def openOutput (cwd : String) (files : FileTree) (path : String) : Except Report Unit :=
  let refused (problem : IoProblem) : Except Report Unit :=
    .error (.because ("unable to create output file in '" ++ parentPath cwd path ++ "'") problem.message)
  if path.startsWith "/" then refused .notFound
  else
    match files.root.follow [] (FilePath.parentSegments path) with
    | .ok (.directory _) => .ok ()
    | .ok (.file _) => refused .notDirectory
    | .error problem => refused problem

def failed (files : FileTree) (stdout : String) (report : Report) : Finished :=
  { exit := 1, stdout, stderr := report.text, files }

/-- Writes to the console, also what came before a failure. -/
def toConsole (files : FileTree) (product : Product) : Finished :=
  match product.failure with
  | some report => failed files product.text report
  | none => { exit := 0, stdout := product.text, files }

/-- Replaces a file, unless there was a failure. -/
def toFile (cwd : String) (files : FileTree) (path : String) (product : Product) : Finished :=
  match product.failure with
  | some report => failed files "" report
  | none =>
    match files.replaceFile path (Text.bytes product.text) with
    | .ok files => { exit := 0, files, replaced := some path }
    | .error problem =>
      failed files "" ⟨⟨"unable to write '" ++ absolutePath cwd path ++ "'", ""⟩,
        [⟨"failed to persist temporary file: " ++ problem.message, ""⟩, ⟨problem.message, ""⟩]⟩

/-- Renders the template of a job, or shows what is inside of it. -/
def perform (cwd : String) (files : FileTree) (job : Job) : Finished :=
  if FilePath.isConsole job.output then toConsole files job.product
  else
    match openOutput cwd files job.output with
    | .error report => failed files "" report
    | .ok () => toFile cwd files job.output job.product

def versionText : String := "stencil-cli 0.4.0\n"

def usageText : String :=
  "Usage: stencil-cli [OPTIONS] <TEMPLATE> [DATA]\n\n"
    ++ "Options:\n"
    ++ "      --config <PATH>       Path to the config file\n"
    ++ "  -t, --templates <DIR>     The directory templates are loaded from\n"
    ++ "  -e, --extension <EXT>     Extension appended to template names without one\n"
    ++ "  -f, --format <FORMAT>     The format of the input data\n"
    ++ "  -D, --define <EXPR>       Defines an input variable (key=value / key:=json_value)\n"
    ++ "  -n, --no-newline          Do not output a trailing newline\n"
    ++ "      --dump <KIND>         Dump internals of a template\n"
    ++ "  -v, --verbose             Increase the log verbosity\n"
    ++ "  -o, --output <FILENAME>   Path to the output file\n"
    ++ "  -h, --help                Print help\n"
    ++ "  -V, --version             Print version\n"

/-- Runs the command in a working directory with the path `cwd`. -/
def run (cwd : String) (files : FileTree) (console : List UInt8) (arguments : List String) : Finished :=
  match Arguments.read arguments with
  | .error .help => { exit := 0, stdout := usageText, files }
  | .error .version => { exit := 0, stdout := versionText, files }
  | .error .rejected => { exit := 2, stderr := usageText, files }
  | .ok arguments =>
    match prepare files console arguments with
    | .error report => failed files "" report
    | .ok job => perform cwd files job

end TextTemplate.Command
