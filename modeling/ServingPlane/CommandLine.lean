import ServingPlane.Settings.Load

/-! # The command line

    Two commands, and an option for the settings file that may stand
    before or after the command.  The command's own option wins. -/

namespace ServingPlane.CommandLine

/-- A command of the daemon. -/
inductive Command where
  | run
  | printConfig
  deriving DecidableEq, Repr

namespace Command

/-- All commands with their names. -/
def named : List (String × Command) := [("run", run), ("print-config", printConfig)]

/-- The name of a command. -/
def name : Command → String
  | run => "run"
  | printConfig => "print-config"

/-- What a command does. -/
def about : Command → String
  | run => "Run the control plane"
  | printConfig => "Print the effective configuration (file plus environment) as TOML"

end Command

/-- What help can be asked on. -/
inductive Topic where
  | program
  | command (c : Command)
  /-- The command that prints help. -/
  | help
  deriving DecidableEq, Repr

/-- What a command line asks for. -/
inductive Invocation where
  | execute (command : Command) (settingsPath : String)
  | help (topic : Topic)
  deriving DecidableEq, Repr

/-- The settings file of a command line that names none. -/
def defaultPath : String := "servegrid.toml"

/-- The name of the program. -/
def programName : String := "servegridd"

/-- The options that every command takes. -/
def optionsHelp : String :=
  "Options:\n"
    ++ "  -c, --config <CONFIG>  Configuration file; defaults apply when it does not exist "
    ++ "[default: servegrid.toml]\n"
    ++ "  -h, --help             Print help\n"

/-- What the command that prints help does. -/
def helpAbout : String := "Print this message or the help of the given subcommand(s)"

/-- The help on a topic. -/
def helpText : Topic → String
  | .program =>
    "ServeGrid autoscaling control plane\n\n"
      ++ "Usage: " ++ programName ++ " [OPTIONS] <COMMAND>\n\n"
      ++ "Commands:\n"
      ++ "  run           " ++ Command.run.about ++ "\n"
      ++ "  print-config  " ++ Command.printConfig.about ++ "\n"
      ++ "  help          " ++ helpAbout ++ "\n\n"
      ++ optionsHelp
  | .help =>
    helpAbout ++ "\n\nUsage: " ++ programName ++ " help [COMMAND]...\n\n"
      ++ "Arguments:\n  [COMMAND]...  Print help for the subcommand(s)\n"
  | .command c =>
    c.about ++ "\n\nUsage: " ++ programName ++ " " ++ c.name ++ " [OPTIONS]\n\n" ++ optionsHelp

/-- How one word of the line is understood. -/
inductive Word where
  /-- The option with its value in the same word. -/
  | pathGiven (value : String)
  /-- The option, its value to follow. -/
  | pathFollows
  | help
  | endOfOptions
  | plain (word : String)
  | unknown
  deriving DecidableEq, Repr

/-- Understand a word. -/
def classify (word : String) : Word :=
  match word.toList with
  | ['-', '-'] => .endOfOptions
  | '-' :: '-' :: name =>
    if name = "config".toList then .pathFollows
    else if name = "help".toList then .help
    else if name.take 7 = "config=".toList then .pathGiven (String.ofList (name.drop 7))
    else .unknown
  | ['-'] => .plain word
  | ['-', 'c'] => .pathFollows
  | '-' :: 'c' :: '=' :: value => .pathGiven (String.ofList value)
  | '-' :: 'c' :: value => .pathGiven (String.ofList value)
  | '-' :: 'h' :: _ => .help
  | '-' :: _ => .unknown
  | _ => .plain word

/-- Whether a word stands for itself, and so can be the value of an option before it. -/
def isWord (word : String) : Bool :=
  match classify word with
  | .plain _ => true
  | _ => false

/-- A command with the settings file named before it and after it. -/
def execution (command : Command) (outer inner : Option String) : Invocation :=
  .execute command ((inner.or outer).getD defaultPath)

/-- The words after a command: options only. -/
def readCommand (command : Command) (outer : Option String) :
    Option String → List String → Option Invocation
  | inner, [] => some (execution command outer inner)
  | inner, word :: rest =>
    match classify word with
    | .help => some (.help (.command command))
    | .pathGiven v =>
      if inner.isSome || v.isEmpty then none else readCommand command outer (some v) rest
    | .pathFollows =>
      match rest with
      | v :: rest =>
        if inner.isSome || v.isEmpty || !isWord v then none
        else readCommand command outer (some v) rest
      | [] => none
    | .endOfOptions => if rest.isEmpty then some (execution command outer inner) else none
    | .plain _ | .unknown => none

/-- What help is wanted on. -/
def readHelp : List String → Option Invocation
  | [] => some (.help .program)
  | ["help"] => some (.help .help)
  | [name] => (Command.named.lookup name).map fun c => .help (.command c)
  | _ => none

/-- What stands before the command. -/
structure Before where
  path : Option String
  /-- Whether the last option, whose value is a word of its own, repeats an
      earlier one or is empty.  That counts once the next option, or the
      whole command after it, has been read. -/
  faulty : Bool
  deriving DecidableEq, Repr

/-- A whole line; nothing for bad usage. -/
def read : Before → List String → Option Invocation
  | _, [] => none
  | before, word :: rest =>
    match classify word with
    | .help => if before.faulty then none else some (.help .program)
    | .pathGiven v =>
      if before.faulty || before.path.isSome || v.isEmpty then none else read ⟨some v, false⟩ rest
    | .pathFollows =>
      match rest with
      | v :: rest =>
        if before.faulty || !isWord v then none
        else read ⟨some v, before.path.isSome || v.isEmpty⟩ rest
      | [] => none
    | .plain "help" => readHelp rest
    | .plain name =>
      match Command.named.lookup name with
      | some c =>
        match readCommand c before.path none rest with
        | some (.execute c path) => if before.faulty then none else some (.execute c path)
        | other => other
      | none => none
    | .endOfOptions | .unknown => none

/-- What a line asks for; nothing for bad usage. -/
def parse (words : List String) : Option Invocation := read ⟨none, false⟩ words

/-- How the program ends: its exit code, and what it prints. -/
structure Outcome where
  exitCode : UInt8
  output : String
  deriving DecidableEq, Repr

/-- Bad usage. -/
def Outcome.usage : Outcome := ⟨2, ""⟩

/-- Any failure. -/
def Outcome.failure : Outcome := ⟨1, ""⟩

/-- A success with its output. -/
def Outcome.success (output : String) : Outcome := ⟨0, output⟩

/-- Print the settings in effect. -/
def printConfig (file : FileContent) (lookup : String → Option String) : Outcome :=
  match Settings.load file lookup with
  | .error _ => .failure
  | .ok s =>
    match s.toToml with
    | some text => .success text
    | none => .failure

/-- How a line ends, given what stands at each path and in the environment.
    To serve takes a network to listen on; without one it ends in failure. -/
def outcome (file : String → FileContent) (lookup : String → Option String)
    (words : List String) : Outcome :=
  match parse words with
  | none => .usage
  | some (.help topic) => .success (helpText topic)
  | some (.execute .printConfig path) => printConfig (file path) lookup
  | some (.execute .run _) => .failure

end ServingPlane.CommandLine
