import LineConsole.ArgumentText
import LineConsole.Shell.Basic

/-! # Lines about variables

A line whose first word starts with `$` shows, assigns or clears a variable. The name ends at the
first character that is neither letter nor digit, so an assignment may follow it at once.
-/

namespace LineConsole

/-- What a variable line asks for. -/
inductive VariableRequest where
  | show (name : String)
  /-- `:=` has no meaning and changes nothing. -/
  | colonAssign (name : String)
  | assign (name : String) (text : List Char)
  deriving DecidableEq, Repr

/-- Reads a variable line: the first word without its `$`, and the rest of the line. -/
def VariableRequest.ofLine (word rest : List Char) : Except Fault VariableRequest :=
  let name := String.ofList (word.takeWhile Text.isAlphanumeric)
  let glued := word.dropWhile Text.isAlphanumeric
  if !isIdentifier name then .error (.invalidVariable (String.ofList word))
  else
    let joined := if glued = [] then rest else if rest = [] then glued else glued ++ ' ' :: rest
    match Text.trim joined with
    | [] => .ok (.show name)
    | ':' :: '=' :: _ => .ok (.colonAssign name)
    | '=' :: text => .ok (.assign name (Text.trim text))
    | _ => .error (.malformed ("expected '=' after $" ++ name))

namespace Shell

variable {H : Type}

/-- Writes a variable with its value, nothing standing for a value that is not set. -/
def showVariable (sh : Shell H) (name : String) : Shell H :=
  sh.writeLine (name ++ " = " ++ (sh.environment.get? name).getD "") .info

/-- Sets a variable to a text in which variables are replaced; an empty value clears it. -/
def assignVariable (sh : Shell H) (name : String) (text : List Char) : Shell H :=
  let value := String.ofList (ArgumentText.expand sh.environment text)
  if value.isEmpty then
    (((sh.eraseVariable name).note (.variableCleared name)).writeLine
      (name ++ " cleared") .info).showVariable name
  else ((sh.note (.variableSet name value)).setVariable name value).showVariable name

section Assigning

variable (sh : Shell H) (name : String) (text : List Char)

theorem environment_assignVariable :
    (sh.assignVariable name text).environment =
      if ArgumentText.expand sh.environment text = [] then sh.environment.erase name
      else sh.environment.set name (String.ofList (ArgumentText.expand sh.environment text)) := by
  unfold assignVariable
  simp only [String.isEmpty_iff, String.ofList_eq_empty_iff]
  split <;> rfl

theorem output_assignVariable :
    (sh.assignVariable name text).output =
      if ArgumentText.expand sh.environment text = [] then
        (sh.output.writeLine (name ++ " cleared") .info).writeLine (name ++ " = ") .info
      else sh.output.writeLine
        (name ++ " = " ++ String.ofList (ArgumentText.expand sh.environment text)) .info := by
  unfold assignVariable
  simp only [String.isEmpty_iff, String.ofList_eq_empty_iff]
  split
  · have erased : ((sh.environment.erase name).get? name).getD "" = "" := by
      rw [Environment.get?_erase, if_pos rfl, Option.getD_none]
    simp only [showVariable, writeLine, note, eraseVariable, erased, String.append_empty]
  · have set (value : String) : ((sh.environment.set name value).get? name).getD "" = value := by
      rw [Environment.get?_set, if_pos rfl, Option.getD_some]
    simp only [showVariable, writeLine, note, setVariable, set]

end Assigning

/-- Executes a line that starts with `$`, given without it. -/
def executeVariableLine (sh : Shell H) (word rest : List Char) : Shell H × Except Fault Unit :=
  if !sh.usesVariables then (sh, .error .variablesDisabled)
  else
    match VariableRequest.ofLine word rest with
    | .error fault => (sh, .error fault)
    | .ok (.show name) =>
      if sh.environment.contains name then (sh.showVariable name, .ok ())
      else (sh, .error (.variableNotFound name))
    | .ok (.colonAssign name) =>
      ((sh.note (.colonAssignment name)).writeLine
        ("':=' is not supported, $" ++ name ++ " is unchanged") .warning, .ok ())
    | .ok (.assign name text) => (sh.assignVariable name text, .ok ())

end Shell

end LineConsole
