import LineConsole.Command.Registry
import LineConsole.Environment
import LineConsole.Files
import LineConsole.History
import LineConsole.LogRecord
import LineConsole.Style
import LineConsole.Value.Converter

/-! # Shells

A shell holds the commands, the variables, the history and the settings that lines are executed with,
the files that scripts are read from, and what has been written and noted so far. Its commands are the
ones built in and those of a host, whose handlers are named by the type `H`.
-/

namespace LineConsole

/-- The commands that every shell can offer. -/
inductive Builtin where
  | help | echo | run | history | vars | unset | lex | exit
  deriving DecidableEq, Repr

inductive Handler (H : Type) where
  | builtin (builtin : Builtin)
  | host (handler : H)
  deriving DecidableEq, Repr

namespace Builtin

/-- The order of registration. -/
def all : List Builtin := [.help, .echo, .run, .history, .vars, .unset, .lex, .exit]

def name : Builtin → String
  | .help => "help" | .echo => "echo" | .run => "run" | .history => "history"
  | .vars => "vars" | .unset => "unset" | .lex => "lex" | .exit => "exit"

def parameters : Builtin → List Parameter
  | .help => [⟨"command", .string, true⟩]
  | .echo => [⟨"text", .string, false⟩]
  | .run => [⟨"path", .path, false⟩]
  | .history => []
  | .vars => []
  | .unset => [⟨"name", .string, false⟩]
  | .lex => [⟨"text", .string, false⟩]
  | .exit => [⟨"code", .int, true⟩]

def description : Builtin → String
  | .help => "List commands, or show usage for one command"
  | .echo => "Print text"
  | .run => "Execute a script file"
  | .history => "Show entered lines"
  | .vars => "List variables"
  | .unset => "Remove a variable"
  | .lex => "Show the lexemes of a piece of text"
  | .exit => "Leave the console"

def command {H : Type} (b : Builtin) : Command (Handler H) :=
  ⟨b.name, b.parameters, b.description, .builtin b⟩

end Builtin

structure Shell (H : Type) where
  registry : Registry (Handler H)
  environment : Environment
  history : History
  converters : Converters
  /-- Whether `$name` has a meaning. -/
  usesVariables : Bool
  /-- Given to script paths without an extension, unless it is empty. -/
  scriptExtension : String
  /-- The message of the last handler that failed. -/
  lastError : Option String
  files : Files
  output : Transcript
  /-- What was noted so far, oldest first. -/
  log : List LogRecord

namespace Shell

variable {H : Type}

def write (sh : Shell H) (text : String) (style : Style) : Shell H :=
  { sh with output := sh.output.write text style }

def writeLine (sh : Shell H) (text : String) (style : Style) : Shell H :=
  { sh with output := sh.output.writeLine text style }

def note (sh : Shell H) (record : LogRecord) : Shell H := { sh with log := sh.log ++ [record] }

def noteAll (sh : Shell H) (records : List LogRecord) : Shell H :=
  { sh with log := sh.log ++ records }

/-- All of a shell but what was noted. -/
def quiet (sh : Shell H) : Shell H := { sh with log := [] }

/-- Changes a shell without sight of what was noted before; what the change notes comes behind it. -/
def changedBy (sh : Shell H) (change : Shell H → Shell H) : Shell H :=
  let after := change sh.quiet
  { after with log := sh.log ++ after.log }

def addHistory (sh : Shell H) (line : String) : Shell H :=
  { sh with history := sh.history.add line }

def setVariable (sh : Shell H) (name value : String) : Shell H :=
  { sh with environment := sh.environment.set name value }

def eraseVariable (sh : Shell H) (name : String) : Shell H :=
  { sh with environment := sh.environment.erase name }

def register (sh : Shell H) (command : Command (Handler H)) : Shell H :=
  { sh with registry := sh.registry.register command }.note
    (.commandRegistered command.name command.usage)

end Shell

/-- What a shell is made of. -/
structure ShellSetup (H : Type) where
  caseSensitive : Bool := false
  usesVariables : Bool := true
  /-- Full stops in front do not count. -/
  scriptExtension : String := "lsf"
  historyCapacity : Nat := History.standardCapacity
  converters : Converters := []
  builtins : Bool := false
  /-- The host's commands, registered behind the ones built in. -/
  commands : List (Command (Handler H)) := []
  files : Files := Files.empty

/-- A shell without variables, history and output. -/
def ShellSetup.shell {H : Type} (setup : ShellSetup H) : Shell H :=
  let bare : Shell H :=
    { registry := Registry.empty setup.caseSensitive
      environment := Environment.empty
      history := History.ofCapacity setup.historyCapacity
      converters := setup.converters
      usesVariables := setup.usesVariables
      scriptExtension := String.ofList (setup.scriptExtension.toList.dropWhile (· == '.'))
      lastError := none
      files := setup.files
      output := []
      log := [] }
  ((if setup.builtins then Builtin.all.map Builtin.command else []) ++ setup.commands).foldl
    Shell.register bare

end LineConsole
