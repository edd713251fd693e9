import LineConsole.Decimal.Reader
import LineConsole.Text.Blank
import LineConsole.Value

/-! # Conversion

A raw argument converts to a value of its parameter's type or not at all. Blanks around numbers and
truth values do not count. Custom types convert by functions that the host registers; a later
registration of a type replaces an earlier one.
-/

namespace LineConsole

structure Converter where
  typeName : String
  /-- The value for a raw argument, if it has one. -/
  convert : String → Option Value

/-- The registered converters, newest first. -/
abbrev Converters := List Converter

structure ConversionFault where
  raw : String
  typeName : String
  deriving DecidableEq, Repr

def ConversionFault.text (f : ConversionFault) : String :=
  "cannot convert '" ++ f.raw ++ "' to " ++ f.typeName

/-- The words for truth values, in any case. -/
def readBool? (raw : String) : Option Bool :=
  let word := String.ofList ((Text.trim raw.toList).map Char.toLower)
  if word = "true" ∨ word = "yes" ∨ word = "on" ∨ word = "1" then some true
  else if word = "false" ∨ word = "no" ∨ word = "off" ∨ word = "0" then some false
  else none

namespace Converters

def register (table : Converters) (converter : Converter) : Converters := converter :: table

def find? (table : Converters) (name : String) : Option Converter :=
  List.find? (·.typeName == name) table

/-- The value that a raw argument has at a type. -/
def value? (table : Converters) (raw : String) : ParamType → Option Value
  | .string => some (.str raw)
  | .int => ((Decimal.readInt? (Text.trim raw.toList)).bind Decimal.int64?).map .int
  | .float => (Decimal.readBinary64? (Text.trim raw.toList)).map .float
  | .bool => (readBool? raw).map .bool
  | .char =>
    match raw.toList with
    | [c] => some (.char c)
    | _ => none
  | .path => if raw.isEmpty then none else some (.path raw)
  | .custom name => (table.find? name).bind (·.convert raw)

def convert (table : Converters) (raw : String) (type : ParamType) : Except ConversionFault Value :=
  match table.value? raw type with
  | some value => .ok value
  | none => .error ⟨raw, type.name⟩

end Converters

end LineConsole
