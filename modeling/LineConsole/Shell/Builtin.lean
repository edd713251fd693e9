import LineConsole.Lexeme.Lexer
import LineConsole.Shell.Program

/-! # Built-in commands

What the handlers of the built-in commands do. None of them changes the registry or the settings.
-/

namespace LineConsole

namespace Builtin

variable {H : Type}

/-- Changes the shell and is done. -/
def doing (change : Shell H → Shell H) : Program H := .update change (.finish .done)

def failing (fault : Fault) : Program H := .finish (.ofFault fault)

/-- How a command is used, with its description below. -/
def showUsage (sh : Shell H) (c : Command (Handler H)) : Shell H :=
  let sh := sh.writeLine c.usage .usage
  if c.description.isEmpty then sh else sh.writeLine ("    " ++ c.description) .plain

/-- Each name with the first description among its commands. -/
def overview (r : Registry (Handler H)) : List (String × String) :=
  r.names.map fun name =>
    (name, (((r.candidates name).map (·.description)).find? (!·.isEmpty)).getD "")

/-- The names are padded to the count of bytes of the longest. -/
def showOverview (sh : Shell H) : Shell H :=
  let lines := overview sh.registry
  let width := (lines.map fun (name, _) => name.utf8ByteSize).foldl max 0
  lines.foldl (fun sh (name, description) =>
      (sh.write ("  " ++ Decimal.paddedRight width name) .command).writeLine
        ("  " ++ description) .plain)
    (sh.writeLine "Commands:" .info)

def helpProgram (a : Arguments) : Program H :=
  match a.str? "command" with
  | none => doing showOverview
  | some name => .inspect fun sh =>
    let candidates := sh.registry.candidates name
    if candidates.isEmpty then failing (.commandNotFound name)
    else doing fun sh => candidates.foldl showUsage sh

def echoProgram (a : Arguments) : Program H :=
  doing (·.writeLine ((a.str? "text").getD "") .plain)

def runProgram (a : Arguments) : Program H :=
  match a.path? "path" with
  | none => .finish (.failed "run: missing path")
  | some path => .script path (.onSuccess (.finish .done))

def showHistory (sh : Shell H) : Shell H :=
  (sh.history.entries.zipIdx 1).foldl (fun sh (line, number) =>
    sh.writeLine (Decimal.paddedLeft 5 (Decimal.natText number) ++ "  " ++ line) .plain) sh

def showVariables (sh : Shell H) : Shell H :=
  if sh.environment.entries.isEmpty then sh.writeLine "no variables set" .info
  else sh.environment.sorted.foldl (fun sh (name, value) =>
    sh.writeLine (name ++ " = " ++ value) .plain) sh

/-- Dollar signs in front of the name do not count. -/
def unsetProgram (a : Arguments) : Program H :=
  let name := String.ofList (((a.str? "name").getD "").toList.dropWhile (· == '$'))
  if !isIdentifier name then failing (.invalidVariable name)
  else .inspect fun sh =>
    if sh.environment.contains name then
      doing fun sh => (sh.eraseVariable name).writeLine (name ++ " cleared") .info
    else failing (.variableNotFound name)

def lexemeLine (l : Lexeme) : String :=
  Decimal.paddedLeft 6 l.start.text ++ "  " ++ Decimal.paddedRight 13 l.kind.name ++ " " ++
    Text.quoted l.content

/-- The lexemes of a text, then its warnings. -/
def showLexemes (items : List (Except Fault Lexeme)) (warnings : List Diagnostic) (sh : Shell H) :
    Shell H :=
  let lexemes := (items.filterMap Except.toOption).filter (·.kind ≠ .endOfFile)
  let sh := lexemes.foldl (fun sh l => sh.writeLine (lexemeLine l) .plain)
    (sh.noteAll (warnings.map .lexicalWarning))
  warnings.foldl (fun sh d => sh.writeLine ("warning: " ++ d.text) .warning) sh

def lexProgram (a : Arguments) : Program H :=
  let (items, lexer) := (Lexer.ofSource ((a.str? "text").getD "")).run
  let warnings := lexer.diagnostics.filter (·.severity = .warning)
  .update (showLexemes items warnings) <|
    match items.getLast? with
    | some (.error fault) => .finish (.failed fault.message)
    | _ => .finish .done

def exitProgram (a : Arguments) : Program H :=
  let code := ((a.int? "code").getD 0).toInt
  match Decimal.int32? code with
  | some code => .finish (.exit code)
  | none => .finish (.failed ("exit code out of range: " ++ Decimal.intText code))

def program : Builtin → Arguments → Program H
  | .help => helpProgram
  | .echo => echoProgram
  | .run => runProgram
  | .history => fun _ => doing showHistory
  | .vars => fun _ => doing showVariables
  | .unset => unsetProgram
  | .lex => lexProgram
  | .exit => exitProgram

end Builtin

/-- What a handler does, built in or of the host. -/
def Handler.program {H : Type} (host : Host H) : Handler H → Arguments → Program H
  | .builtin b => b.program
  | .host handler => host handler

end LineConsole
