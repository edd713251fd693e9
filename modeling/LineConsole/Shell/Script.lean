import LineConsole.Shell.Program
import LineConsole.Text.Lines

/-! # Scripts

A script is a text whose lines are executed in order, except for blank ones and those that start with
`#`. The first fault of the user stops it and is told with the file and the line; any other fault
stops it as it is.
-/

namespace LineConsole

/-- The statements of a script with their lines, which count from one. -/
def statements (source : String) : List (Nat × String) :=
  ((Text.lines source.toList).zipIdx 1).filterMap fun (line, number) =>
    let statement := Text.trim line
    if statement = [] ∨ statement.head? = some '#' then none
    else some (number, String.ofList statement)

/-- A message with its first letter in lower case. -/
def lowerFirst (message : String) : String :=
  match message.toList with
  | [] => ""
  | c :: rest => String.ofList (c.toLower :: rest)

/-- What a script makes of a fault in one of its lines. -/
def scriptFault (path : String) (line : Nat) (fault : Fault) : Fault :=
  if fault.isUserFault then .script path line (lowerFirst fault.message) else fault

namespace Shell

variable {H : Type}

/-- Executes statements up to the first that fails. -/
def runStatements (execute : Shell H → String → Execution H) (path : String) :
    List (Nat × String) → Shell H → Execution H
  | [], sh => some (sh, .ok ())
  | (number, statement) :: rest, sh =>
    match execute (sh.note (.scriptStatement number statement)) statement with
    | none => none
    | some (sh, .ok _) => runStatements execute path rest sh
    | some (sh, .error fault) => some (sh, .error (scriptFault path number fault))

/-- Executes the script that a path leads to, with the shell's extension if it has none. -/
def executeScriptWith (execute : Shell H → String → Execution H) (sh : Shell H) (path : String) :
    Execution H :=
  let path := Path.withDefaultExtension sh.scriptExtension path
  if !sh.files.isFile path then some (sh, .error (.scriptNotFound path))
  else
    match sh.files.readText path with
    | .error fault => some (sh, .error (.io fault))
    | .ok source =>
      match runStatements execute path (statements source) (sh.note (.scriptStarted path)) with
      | some (sh, .ok _) => some (sh.note (.scriptFinished path), .ok ())
      | other => other

end Shell

end LineConsole
