/-!
Arguments of the command. Options may stand before and after the names of the template and of its
data, until two hyphens end them. Only defines may be given more than once.
-/
namespace TextTemplate.Command

inductive Flag where
  | noNewline
  | verbose
  | help
  | version
  deriving DecidableEq, Repr

/-- Options with a value. -/
inductive Setting where
  | config
  | templates
  | extension
  | format
  | define
  | dump
  | output
  deriving DecidableEq, Repr

inductive Switch where
  | flag (flag : Flag)
  | setting (setting : Setting)
  deriving DecidableEq, Repr

namespace Switch

def ofLong? : String → Option Switch
  | "config" => some (.setting .config)
  | "templates" => some (.setting .templates)
  | "extension" => some (.setting .extension)
  | "format" => some (.setting .format)
  | "define" => some (.setting .define)
  | "no-newline" => some (.flag .noNewline)
  | "dump" => some (.setting .dump)
  | "verbose" => some (.flag .verbose)
  | "output" => some (.setting .output)
  | "help" => some (.flag .help)
  | "version" => some (.flag .version)
  | _ => none

def ofShort? : Char → Option Switch
  | 't' => some (.setting .templates)
  | 'e' => some (.setting .extension)
  | 'f' => some (.setting .format)
  | 'D' => some (.setting .define)
  | 'n' => some (.flag .noNewline)
  | 'v' => some (.flag .verbose)
  | 'o' => some (.setting .output)
  | 'h' => some (.flag .help)
  | 'V' => some (.flag .version)
  | _ => none

end Switch

inductive DumpKind where
  | tokens
  | ast
  | instructions
  deriving DecidableEq, Repr

namespace DumpKind

def ofName? : String → Option DumpKind
  | "tokens" => some .tokens
  | "ast" => some .ast
  | "instructions" => some .instructions
  | _ => none

end DumpKind

namespace Setting

/-- Formats have a name, paths are not empty, and all else is free. -/
def accepts : Setting → String → Bool
  | .format, value => ["auto", "json", "toml", "yaml"].contains value
  | .dump, value => (DumpKind.ofName? value).isSome
  | .config, value | .templates, value | .output, value => !value.isEmpty
  | .extension, _ | .define, _ => true

end Setting

/-- What was found in the arguments. -/
structure Given where
  flags : List Flag := []
  settings : List (Setting × String) := []
  names : List String := []
  deriving Repr

/-- Why no template is rendered. -/
inductive Halt where
  | help
  | version
  | rejected
  deriving DecidableEq, Repr

namespace Given

def addFlag (given : Given) (flag : Flag) : Except Halt Given :=
  match flag with
  | .help => .error .help
  | .version => .error .version
  | .verbose => .ok { given with flags := given.flags ++ [.verbose] }
  | .noNewline =>
    if given.flags.contains .noNewline then .error .rejected
    else .ok { given with flags := given.flags ++ [.noNewline] }

def has (given : Given) (setting : Setting) : Bool :=
  given.settings.any fun (other, _) => other == setting

def addSetting (given : Given) (setting : Setting) (value : String) : Except Halt Given :=
  if !setting.accepts value || (setting != .define && given.has setting) then .error .rejected
  else .ok { given with settings := given.settings ++ [(setting, value)] }

/-- The first name is the template and the second one the path of its data. -/
def addName (given : Given) (name : String) : Except Halt Given :=
  match given.names with
  | [] => .ok { given with names := [name] }
  | [template] => if name.isEmpty then .error .rejected else .ok { given with names := [template, name] }
  | _ => .error .rejected

/-- Letters behind one hyphen. The first option with a value takes the rest, without one sign of
equality in front, or the next argument if nothing is left. -/
def addShort (given : Given) : List Char → Except Halt (Given × Option Setting)
  | [] => .ok (given, none)
  | c :: cs =>
    match Switch.ofShort? c, cs with
    | none, _ => .error .rejected
    | some (.flag flag), cs =>
      match given.addFlag flag with
      | .ok given => addShort given cs
      | .error halt => .error halt
    | some (.setting setting), [] => .ok (given, some setting)
    | some (.setting setting), '=' :: value =>
      (given.addSetting setting (String.ofList value)).map fun given => (given, none)
    | some (.setting setting), value =>
      (given.addSetting setting (String.ofList value)).map fun given => (given, none)

/-- A name behind two hyphens, with its value if there is a sign of equality. -/
def addLong (given : Given) (cs : List Char) : Except Halt (Given × Option Setting) :=
  let name := cs.takeWhile (· != '=')
  match Switch.ofLong? (String.ofList name), cs.drop name.length with
  | some (.flag flag), [] => (given.addFlag flag).map fun given => (given, none)
  | some (.setting setting), [] => .ok (given, some setting)
  | some (.setting setting), _ :: value =>
    (given.addSetting setting (String.ofList value)).map fun given => (given, none)
  | _, _ => .error .rejected

/-- Goes through the arguments; `awaiting` is an option whose value comes next. -/
def scan (given : Given) (awaiting : Option Setting) : List String → Except Halt Given
  | [] => if awaiting.isSome then .error .rejected else .ok given
  | argument :: arguments =>
    match argument.toList, awaiting with
    | '-' :: _ :: _, some _ => .error .rejected
    | _, some setting =>
      match given.addSetting setting argument with
      | .ok given => scan given none arguments
      | .error halt => .error halt
    | ['-', '-'], none => arguments.foldlM addName given
    | '-' :: '-' :: name, none =>
      match given.addLong name with
      | .ok (given, awaiting) => scan given awaiting arguments
      | .error halt => .error halt
    | '-' :: letter :: letters, none =>
      match given.addShort (letter :: letters) with
      | .ok (given, awaiting) => scan given awaiting arguments
      | .error halt => .error halt
    | _, none =>
      match given.addName argument with
      | .ok given => scan given none arguments
      | .error halt => .error halt

def values (given : Given) (setting : Setting) : List String :=
  (given.settings.filter fun (other, _) => other == setting).map Prod.snd

def value? (given : Given) (setting : Setting) : Option String :=
  (given.values setting).head?

end Given

structure Arguments where
  template : String
  data : Option String := none
  config : Option String := none
  templates : Option String := none
  extension : Option String := none
  format : Option String := none
  defines : List String := []
  noNewline : Bool := false
  dump : Option DumpKind := none
  output : Option String := none
  deriving Repr

namespace Arguments

def read (arguments : List String) : Except Halt Arguments :=
  match ({} : Given).scan none arguments with
  | .error halt => .error halt
  | .ok given =>
    match given.names with
    | [] => .error .rejected
    | template :: names =>
      .ok {
        template, data := names.head?
        config := given.value? .config
        templates := given.value? .templates
        extension := given.value? .extension
        format := given.value? .format
        defines := given.values .define
        noNewline := given.flags.contains .noNewline
        dump := (given.value? .dump).bind DumpKind.ofName?
        output := given.value? .output }

end Arguments

end TextTemplate.Command
