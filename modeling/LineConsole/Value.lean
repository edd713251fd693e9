import LineConsole.Decimal.Shortest
import LineConsole.Decimal.Integer

/-! # Values

Arguments are typed. A value that was not supplied stands for an optional argument that is missing.
-/

namespace LineConsole

inductive ParamType where
  | string | int | float | bool | char | path
  /-- A type that the host converts to, by its name. -/
  | custom (name : String)
  deriving DecidableEq, Repr

def ParamType.name : ParamType → String
  | .string => "string" | .int => "int" | .float => "float" | .bool => "bool"
  | .char => "char" | .path => "path" | .custom name => name

/-- The type of a name; a name that is not built in names a custom type. -/
def ParamType.ofName (name : String) : ParamType :=
  match name with
  | "string" => .string | "int" => .int | "float" => .float | "bool" => .bool
  | "char" => .char | "path" => .path | name => .custom name

inductive Value where
  | str (s : String)
  | int (i : Int64)
  | float (x : Decimal.Binary64)
  | bool (b : Bool)
  | char (c : Char)
  | path (p : String)
  | custom (typeName raw : String)
  | notSupplied
  deriving DecidableEq, Repr

namespace Value

def isSupplied : Value → Bool
  | .notSupplied => false
  | _ => true

def str? : Value → Option String
  | .str s => some s
  | .custom _ raw => some raw
  | _ => none

def int? : Value → Option Int64
  | .int i => some i
  | _ => none

/-- Integers count as numbers with a fraction too. -/
def float? : Value → Option Decimal.Binary64
  | .float x => some x
  | .int i => some (.ofInt i.toInt)
  | _ => none

def bool? : Value → Option Bool
  | .bool b => some b
  | _ => none

def path? : Value → Option String
  | .path p => some p
  | _ => none

def text : Value → String
  | .str s => s
  | .int i => Decimal.intText i.toInt
  | .float x => x.text
  | .bool b => if b then "true" else "false"
  | .char c => String.singleton c
  | .path p => p
  | .custom _ raw => raw
  | .notSupplied => "<not supplied>"

end Value

end LineConsole
