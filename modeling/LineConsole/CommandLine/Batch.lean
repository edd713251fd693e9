import LineConsole.CommandLine
import LineConsole.Config.Loading
import LineConsole.History.File
import LineConsole.Shell.Execution

/-! # Running without a terminal

One run of the program from its arguments, its environment and the files to its output, its exit
status and the files afterwards. Scripts and a line are executed by a shell with the built-in commands
and no others; the history is read before and written after them.
-/

namespace LineConsole

/-- What is left when the program ends. -/
structure RunResult where
  /-- The exit status. -/
  status : Nat
  output : String
  /-- The messages, a line each. -/
  messages : List String
  files : Files
  /-- The scripts that were not found. -/
  missing : List String
  deriving DecidableEq, Repr

namespace RunResult

/-- Shows a text and runs nothing. -/
def shown (text : String) (files : Files) : RunResult := ⟨0, text, [], files, []⟩

/-- Tells of wrong arguments and runs nothing. -/
def refused (fault : UsageFault) (files : Files) : RunResult :=
  ⟨2, "", ["error: " ++ fault.message], files, []⟩

end RunResult

/-- The status that a process ends with. A code that does not fit into one byte counts as failure. -/
def exitStatus (code : Int32) : Nat :=
  if 0 ≤ code.toInt ∧ code.toInt ≤ 255 then code.toInt.toNat else 1

namespace Shell

variable {H : Type}

/-- Executes items in order up to the first that does not succeed. -/
def executeAll {α : Type} (execute : Shell H → α → Execution H) :
    List α → Shell H → Execution H
  | [], sh => some (sh, .ok ())
  | a :: rest, sh =>
    match execute sh a with
    | some (sh, .ok _) => executeAll execute rest sh
    | other => other

/-- Executes the scripts of an invocation and then its line. -/
def executeBatch (host : Host H) (depth : Nat) (sh : Shell H) (invocation : Invocation) :
    Execution H :=
  match executeAll (executeScript host depth) invocation.scripts sh with
  | some (sh, .ok _) => executeAll (executeLine host depth) invocation.command.toList sh
  | other => other

/-- The code that a batch ends with: the one that was asked for, or 1 after a fault. -/
def batchCode : Except Fault Unit → Int32
  | .ok _ => 0
  | .error (.exit code) => code
  | .error _ => 1

/-- What the user is told about a batch; a request to leave is no fault. -/
def batchMessages : Except Fault Unit → List String
  | .ok _ | .error (.exit _) => []
  | .error fault => ["lsc: " ++ fault.text]

/-- The script that a handler's failure says is missing. -/
def missingScript? : LogRecord → Option String
  | .commandFailed _ message =>
    if message.startsWith "Script not found: " then some (message.drop 18).toString else none
  | _ => none

end Shell

namespace Invocation

/-- Where an invocation has its configuration from. -/
def source (invocation : Invocation) : ConfigSource :=
  match invocation.config with
  | some path => .file path
  | none => .standard

/-- The configuration of a run. One that cannot be loaded is told of, and the standard one holds. -/
def configure (invocation : Invocation) (files : Files) (env : Environment) :
    Config × List String :=
  match Config.load files env invocation.source with
  | .ok config => (config, [])
  | .error fault =>
    ({}, ["Warning: Failed to load config: " ++ fault.message ++ ", using defaults"])

/-- The shell of a run, as configured and with the flags on top. -/
def shell (invocation : Invocation) (config : Config) (files : Files) : Shell Empty :=
  ShellSetup.shell
    { caseSensitive := config.console.caseSensitive || invocation.flags.contains .caseSensitive
      usesVariables := config.console.usesVariables && !invocation.flags.contains .noVariables
      scriptExtension := config.console.scriptExtension
      historyCapacity := config.history.maxEntries
      builtins := true
      files }

/-- The file that keeps the history, if one does. -/
def historyPath? (config : Config) (env : Environment) : Option String :=
  if config.history.enabled then some (config.history.path (Config.home? env)) else none

/-- Reads the history of a shell as far as that is possible. -/
def loadHistory {H : Type} (path : Option String) (sh : Shell H) : Shell H :=
  match path with
  | some path => { sh with history := (sh.history.load sh.files path).1 }
  | none => sh

/-- Writes the history of a shell if that is possible. -/
def saveHistory {H : Type} (path : Option String) (sh : Shell H) : Files :=
  match path with
  | some path => (sh.history.save sh.files path).1
  | none => sh.files

/-- No handlers other than the built-in ones. -/
def noHost : Host Empty := fun handler => nomatch handler

/-- Runs the scripts and the line of an invocation whose handlers nest at most `depth` deep. Lines
cannot be typed without a terminal. -/
def run (depth : Nat) (invocation : Invocation) (files : Files) (env : Environment) :
    Option RunResult :=
  let (config, warnings) := invocation.configure files env
  let path := historyPath? config env
  let sh := loadHistory path (invocation.shell config files)
  if invocation.isInteractive then
    some ⟨1, "", warnings ++ ["lsc: " ++ IoFault.noTerminal.message], files, []⟩
  else
    (Shell.executeBatch noHost depth sh invocation).map fun (sh, result) =>
      let missing := match result with
        | .error (.scriptNotFound path) => [path]
        | _ => []
      { status := exitStatus (Shell.batchCode result)
        output := sh.output.text
        messages := warnings ++ Shell.batchMessages result
        files := saveHistory path sh
        missing := sh.log.filterMap Shell.missingScript? ++ missing }

end Invocation

namespace CommandLine

/-- Runs the program. -/
def run (depth : Nat) (arguments : List String) (files : Files) (env : Environment) :
    Option RunResult :=
  match read arguments with
  | .error fault => some (.refused fault files)
  | .ok .showHelp => some (.shown helpText files)
  | .ok .showVersion => some (.shown versionText files)
  | .ok (.run invocation) => invocation.run depth files env

end CommandLine

end LineConsole
