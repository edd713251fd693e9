import LineConsole.Fault
import LineConsole.Text.Quoted

/-! # Log records

What a program notes about its own work. A record is told by what happened; its level, its message
and its fields follow from that.
-/

namespace LineConsole

inductive LogLevel where
  | trace | debug | info | warn | error
  deriving DecidableEq, Repr

def LogLevel.name : LogLevel → String
  | .trace => "TRACE" | .debug => "DEBUG" | .info => "INFO" | .warn => "WARN" | .error => "ERROR"

inductive LogRecord where
  | commandRegistered (name usage : String)
  | tryingCandidate (usage : String)
  | candidateRejected (fault : Fault)
  | invoking (command : String) (count : Nat)
  | noOverload (command : String) (count : Nat)
  | commandFailed (command message : String)
  | lineFailed (fault : Fault)
  | variableSet (name value : String)
  | variableCleared (name : String)
  | colonAssignment (name : String)
  | scriptStarted (path : String)
  | scriptStatement (line : Nat) (statement : String)
  | scriptFinished (path : String)
  | lineCommitted (line : String)
  | replayingKeys (count : Nat)
  | lexicalWarning (diagnostic : Diagnostic)
  /-- Whatever a handler of the host wants to have noted. -/
  | note (text : String)
  deriving DecidableEq, Repr

namespace LogRecord

def level : LogRecord → LogLevel
  | .scriptStarted _ | .scriptFinished _ => .info
  | .commandFailed _ _ | .colonAssignment _ | .lexicalWarning _ => .warn
  | .note _ => .trace
  | _ => .debug

def message : LogRecord → String
  | .commandRegistered _ _ => "Registered command"
  | .tryingCandidate _ => "Trying candidate"
  | .candidateRejected _ => "Candidate rejected"
  | .invoking _ _ => "Invoking command"
  | .noOverload _ _ => "No overload accepts the argument count"
  | .commandFailed _ _ => "Command failed"
  | .lineFailed _ => "Line failed"
  | .variableSet _ _ => "Variable set"
  | .variableCleared _ => "Variable cleared"
  | .colonAssignment _ => "':=' assignment is not supported"
  | .scriptStarted _ => "Running script"
  | .scriptStatement _ _ => "Script statement"
  | .scriptFinished _ => "Script finished"
  | .lineCommitted _ => "Line committed"
  | .replayingKeys _ => "Replaying queued key events"
  | .lexicalWarning diagnostic => diagnostic.message
  | .note text => text

/-- Names and values, in order. A script's statement is shown quoted. -/
def fields : LogRecord → List (String × String)
  | .commandRegistered name usage => [("name", name), ("usage", usage)]
  | .tryingCandidate usage => [("usage", usage)]
  | .candidateRejected fault => [("error", fault.text)]
  | .invoking command count => [("command", command), ("args", Decimal.natText count)]
  | .noOverload command count => [("command", command), ("args", Decimal.natText count)]
  | .commandFailed command message => [("command", command), ("error", message)]
  | .lineFailed fault => [("error", fault.text)]
  | .variableSet name value => [("variable", name), ("value", value)]
  | .variableCleared name => [("variable", name)]
  | .colonAssignment name => [("variable", name)]
  | .scriptStarted path => [("path", path)]
  | .scriptStatement line statement =>
    [("line", Decimal.natText line), ("statement", Text.quoted statement)]
  | .scriptFinished path => [("path", path)]
  | .lineCommitted line => [("line", line)]
  | .replayingKeys count => [("events", Decimal.natText count)]
  | .lexicalWarning diagnostic => [("location", diagnostic.location.text)]
  | .note _ => []

def text (r : LogRecord) : String :=
  r.level.name ++ " " ++ r.message ++
    String.join (r.fields.map fun (name, value) => " " ++ name ++ "=" ++ value)

end LogRecord

end LineConsole
