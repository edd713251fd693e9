import LineConsole.CommandLine.Batch

/-! # The program

Fetches what a run needs from the disk and from the environment, runs, and writes what is left. A run
is computed from the files that are known; as long as it asks for scripts that are not known yet but
are there, it is computed again with them.
-/

namespace LineConsole

/-- How deep scripts may run scripts. -/
def nestingLimit : Nat := 1000

/-- The tree with a file of the disk in it, if that file is there. -/
def fetch (files : Files) (path : String) : IO Files := do
  if files.isPresent path then return files
  try
    let bytes ← IO.FS.readBinFile path
    let prepared := (files.makeParent path).toOption.getD files
    return (prepared.write path bytes.toList).toOption.getD files
  catch _ => return files

/-- The environment with a variable of the process in it, if that is set. -/
def fetchVariable (env : Environment) (name : String) : IO Environment := do
  match ← IO.getEnv name with
  | some value => return env.set name value
  | none => return env

/-- The files and the environment that an invocation is configured with. -/
def fetchConfig (invocation : Invocation) : IO (Files × Environment) := do
  let env ← Config.ownVariables.foldlM fetchVariable Environment.empty
  let paths := Config.paths env invocation.source
  let files ← paths.foldlM fetch Files.empty
  let names := paths.flatMap fun path => ((files.readText path).map variableNames).toOption.getD []
  return (files, ← names.foldlM fetchVariable env)

/-- Runs an invocation until it finds all scripts that are there. -/
partial def runToEnd (invocation : Invocation) (files : Files) (env : Environment) :
    IO (Option RunResult) := do
  let some result := invocation.run nestingLimit files env | return none
  let more ← result.missing.foldlM fetch files
  if more.nodes.length = files.nodes.length then return some result
  else runToEnd invocation more env

/-- Writes a file and the directories above it, if that is possible. -/
def store (path : String) (bytes : List UInt8) : IO Unit := do
  try
    if let some above := Path.parent? path.toList then
      if above ≠ [] then IO.FS.createDirAll (String.ofList above)
    IO.FS.writeBinFile path ⟨bytes.toArray⟩
  catch _ => pure ()

def report (result : RunResult) : IO UInt32 := do
  IO.print result.output
  result.messages.forM fun message => IO.eprintln message
  return UInt32.ofNat result.status

/-- Runs an invocation and keeps the history it leaves. -/
def runInvocation (invocation : Invocation) : IO UInt32 := do
  let (files, env) ← fetchConfig invocation
  let path := Invocation.historyPath? (invocation.configure files env).1 env
  let files ← path.toList.foldlM fetch files
  let some result ← runToEnd invocation files env
    | IO.eprintln "lsc: scripts nest too deep"
      return 134
  if let some path := path then
    if !invocation.isInteractive then
      if let .ok bytes := result.files.read path then store path bytes
  report result

end LineConsole

open LineConsole

def main (arguments : List String) : IO UInt32 := do
  match CommandLine.read arguments with
  | .error fault => report (.refused fault Files.empty)
  | .ok .showHelp => report (.shown CommandLine.helpText Files.empty)
  | .ok .showVersion => report (.shown CommandLine.versionText Files.empty)
  | .ok (.run invocation) => runInvocation invocation
