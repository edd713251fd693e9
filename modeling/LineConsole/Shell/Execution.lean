import LineConsole.Shell.Builtin
import LineConsole.Shell.Resolution
import LineConsole.Shell.Script

/-! # Executing lines

A line is prepared and then, if it names a command, the handler runs. A failing handler is reported
and does not fail the line; only a request to leave passes through. Handlers may execute lines and
scripts themselves: `depth` bounds how deep that nests, and no answer is given beyond it.
-/

namespace LineConsole.Shell

variable {H : Type}

/-- Reports the failure of a handler. -/
def reportFailure (sh : Shell H) (command message : String) : Shell H :=
  { (sh.note (.commandFailed command message)).writeLine message .error with
    lastError := some message }

/-- What the outcome of a handler means for its line. -/
def settle (sh : Shell H) (command : String) : Outcome → Shell H × Except Fault Unit
  | .done => (sh, .ok ())
  | .exit code => (sh, .error (.exit code))
  | .failed message => (sh.reportFailure command message, .ok ())
  | .crashed reason => (sh.reportFailure command (reason.getD "command panicked"), .ok ())

/-- Runs the handler of a command. -/
def invoke (host : Host H) (runner : Runner H) (sh : Shell H) (command : Command (Handler H))
    (arguments : Arguments) : Execution H :=
  let sh := sh.note (.invoking command.name arguments.values.length)
  ((command.handler.program host arguments).run runner sh).map fun (sh, outcome) =>
    sh.settle command.name outcome

def executeLineWith (host : Host H) (runner : Runner H) (sh : Shell H) (line : String) :
    Execution H :=
  match sh.prepare line with
  | (sh, .settled result) => some (sh, result)
  | (sh, .call command arguments) => sh.invoke host runner command arguments

/-- Lines and scripts whose handlers nest at most `depth` deep. -/
def runner (host : Host H) : Nat → Runner H
  | 0 => ⟨fun _ _ => none, fun _ _ => none⟩
  | depth + 1 =>
    let line := executeLineWith host (runner host depth)
    ⟨line, executeScriptWith line⟩

def executeLine (host : Host H) (depth : Nat) (sh : Shell H) (line : String) : Execution H :=
  (runner host depth).line sh line

def executeScript (host : Host H) (depth : Nat) (sh : Shell H) (path : String) : Execution H :=
  (runner host depth).script sh path

section Line

variable {host : Host H} {depth : Nat} {sh sh' : Shell H} {line : String}

theorem executeLine_of_settled {result : Except Fault Unit}
    (prepared : sh.prepare line = (sh', .settled result)) :
    sh.executeLine host (depth + 1) line = some (sh', result) := by
  rw [executeLine, runner]
  simp only [executeLineWith, prepared]

theorem executeLine_of_call {command : Command (Handler H)} {arguments : Arguments}
    (prepared : sh.prepare line = (sh', .call command arguments)) :
    sh.executeLine host (depth + 1) line = sh'.invoke host (runner host depth) command arguments := by
  rw [executeLine, runner]
  simp only [executeLineWith, prepared]

end Line

/-- Writes the fault of a line that was typed. A request to leave is passed on. -/
def reportFault (sh : Shell H) : Except Fault Unit → Shell H × Option Int32
  | .ok _ => (sh, none)
  | .error (.exit code) => (sh, some code)
  | .error fault => ((sh.note (.lineFailed fault)).writeLine fault.text .error, none)

/-- Executes a line that was typed; only a request to leave comes back. -/
def runLine (host : Host H) (depth : Nat) (sh : Shell H) (line : String) :
    Option (Shell H × Option Int32) :=
  (executeLine host depth sh line).map fun (sh, result) => sh.reportFault result

end LineConsole.Shell

namespace LineConsole.Program

/-- A handler runs a line as if it was typed. -/
def typedLine {H : Type} (text : String) (next : Program H) : Program H :=
  .line text fun
    | .error (.exit code) => .finish (.exit code)
    | result => .update (fun sh => (sh.reportFault result).1) next

end LineConsole.Program
