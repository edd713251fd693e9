import LineConsole.Fault
import LineConsole.Text.Blank
import LineConsole.Value

/-! # Commands

A command has a name, parameters and a handler. Several commands may share a name and differ in their
parameters. A draft becomes a command if its name can be typed, its optional parameters come last and
it has a handler. `H` is the type that handlers are named by.
-/

namespace LineConsole

structure Parameter where
  name : String
  type : ParamType
  isOptional : Bool
  deriving DecidableEq, Repr

structure Command (H : Type) where
  name : String
  parameters : List Parameter
  description : String
  handler : H
  deriving DecidableEq, Repr

/-- A command that has not been checked. -/
structure CommandDraft (H : Type) where
  name : String
  parameters : List Parameter
  description : String
  handler : Option H
  deriving DecidableEq, Repr

/-- The first required parameter behind an optional one. -/
def misplaced? (parameters : List Parameter) : Option Parameter :=
  (parameters.dropWhile (!·.isOptional)).find? (!·.isOptional)

def CommandDraft.build {H : Type} (draft : CommandDraft H) : Except Fault (Command H) :=
  let name := draft.name
  if name.isEmpty || name.toList.any Text.isBlank then
    .error (.invalidCommand ("'" ++ name ++ "' is not a valid command name"))
  else if name.toList.head? = some '$' then
    .error (.invalidCommand ("'" ++ name ++ "' clashes with variable syntax"))
  else
    match misplaced? draft.parameters, draft.handler with
    | some parameter, _ =>
      .error (.invalidCommand
        (name ++ ": required parameter '" ++ parameter.name ++ "' follows an optional one"))
    | none, none => .error (.invalidCommand (name ++ ": no handler"))
    | none, some handler => .ok ⟨name, draft.parameters, draft.description, handler⟩

namespace Command

variable {H : Type}

def requiredCount (c : Command H) : Nat := c.parameters.countP (!·.isOptional)

def totalCount (c : Command H) : Nat := c.parameters.length

/-- One parameter, of type string: such a command takes the whole argument text when that has more
than one argument. -/
def isSingleString (c : Command H) : Bool :=
  match c.parameters with
  | [parameter] => parameter.type = .string
  | _ => false

theorem exists_of_isSingleString {c : Command H} (single : c.isSingleString = true) :
    ∃ p, c.parameters = [p] ∧ p.type = .string := by
  unfold isSingleString at single
  split at single
  · exact ⟨_, ‹_›, of_decide_eq_true single⟩
  · cases single

/-- Whether a count of raw arguments fits. -/
def accepts (c : Command H) (count : Nat) : Bool :=
  c.requiredCount ≤ count && (c.isSingleString || count ≤ c.totalCount)

def parameterUsage (p : Parameter) : String :=
  let body := p.name ++ ":" ++ p.type.name
  if p.isOptional then " [" ++ body ++ "]" else " <" ++ body ++ ">"

def usage (c : Command H) : String := c.name ++ String.join (c.parameters.map parameterUsage)

end Command

/-- The values for a command's parameters, in their order. -/
structure Arguments where
  parameters : List Parameter
  values : List Value
  deriving DecidableEq, Repr

namespace Arguments

/-- The value of the first parameter of a name, if it was supplied. -/
def value? (a : Arguments) (name : String) : Option Value := do
  let position ← a.parameters.findIdx? (·.name == name)
  (a.values[position]?).filter Value.isSupplied

def str? (a : Arguments) (name : String) : Option String := (a.value? name).bind Value.str?

def int? (a : Arguments) (name : String) : Option Int64 := (a.value? name).bind Value.int?

def float? (a : Arguments) (name : String) : Option Decimal.Binary64 :=
  (a.value? name).bind Value.float?

def bool? (a : Arguments) (name : String) : Option Bool := (a.value? name).bind Value.bool?

def path? (a : Arguments) (name : String) : Option String := (a.value? name).bind Value.path?

end Arguments

end LineConsole
