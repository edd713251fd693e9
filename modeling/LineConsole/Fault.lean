import LineConsole.Location

/-! # Why something failed

A fault is the reason why a line, a script or an operation on a file came to nothing. A request to
leave travels the same way and is not a failure. Faults that the user caused stop a script but never
the program around it.
-/

namespace LineConsole

/-- Failures of files, the screen and the input. -/
inductive IoFault where
  | notFound
  | exists
  | notDirectory
  | isDirectory
  | nameTooLong
  | nulInPath
  | invalidUtf8
  | inputClosed
  | noTerminal
  | other (message : String)
  deriving DecidableEq, Repr

def IoFault.message : IoFault → String
  | .notFound => "No such file or directory (os error 2)"
  | .exists => "File exists (os error 17)"
  | .notDirectory => "Not a directory (os error 20)"
  | .isDirectory => "Is a directory (os error 21)"
  | .nameTooLong => "File name too long (os error 36)"
  | .nulInPath => "file name contained an unexpected NUL byte"
  | .invalidUtf8 => "stream did not contain valid UTF-8"
  | .inputClosed => "stdin closed"
  | .noTerminal => "No such device or address (os error 6)"
  | .other message => message

inductive Fault where
  /-- The text has a lexical error. -/
  | lexical (diagnostic : Diagnostic)
  /-- The arguments or the assignment are malformed. -/
  | malformed (message : String)
  | commandNotFound (name : String)
  /-- The name is known, but no command of that name takes this many arguments. -/
  | countMismatch (command : String) (count : Nat)
  | notConvertible (parameter typeName value : String)
  | variableNotFound (name : String)
  | invalidCommand (message : String)
  | invalidVariable (name : String)
  | variablesDisabled
  | scriptNotFound (path : String)
  /-- A statement of a script failed; lines count from one. -/
  | script (file : String) (line : Nat) (message : String)
  | io (fault : IoFault)
  /-- Not a failure: a command asks to leave with this code. -/
  | exit (code : Int32)
  deriving DecidableEq, Repr

namespace Fault

def exitText (code : Int32) : String :=
  "Control signal: Exit(" ++ Decimal.intText code.toInt ++ ")"

/-- The full text of a fault. -/
def text : Fault → String
  | .lexical d => "Lex error: " ++ d.text
  | .malformed message => "Parse error: " ++ message
  | .commandNotFound name => "Command not found: " ++ name
  | .countMismatch command count =>
    "No overload of '" ++ command ++ "' accepts " ++ Decimal.natText count ++ " argument(s)"
  | .notConvertible parameter typeName value =>
    "Cannot convert '" ++ value ++ "' to " ++ typeName ++ " for parameter '" ++ parameter ++ "'"
  | .variableNotFound name => "No variable found with name '" ++ name ++ "'"
  | .invalidCommand message => "Invalid command definition: " ++ message
  | .invalidVariable name => "Invalid variable name '" ++ name ++ "'"
  | .variablesDisabled => "Variables are disabled"
  | .scriptNotFound path => "Script not found: " ++ path
  | .script file line message => file ++ ":" ++ Decimal.natText line ++ ": " ++ message
  | .io fault => "IO error: " ++ fault.message
  | .exit code => exitText code

/-- The text without the category in front of it, for use inside another message. -/
def message : Fault → String
  | .lexical d => d.text
  | .malformed message => message
  | fault => fault.text

/-- A fault that the user caused. -/
def isUserFault : Fault → Bool
  | .lexical _ | .malformed _ | .commandNotFound _ | .countMismatch _ _ | .notConvertible _ _ _
  | .variableNotFound _ | .invalidVariable _ | .variablesDisabled | .script _ _ _ => true
  | .invalidCommand _ | .scriptNotFound _ | .io _ | .exit _ => false

end Fault

end LineConsole
