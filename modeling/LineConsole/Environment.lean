import LineConsole.Text.Alphanumeric

/-! # Variables

An environment gives some names a value. A name that is set again loses its old value, so every name
has at most one.
-/

namespace LineConsole

structure Environment where
  entries : List (String × String)
  deriving DecidableEq, Repr

namespace Environment

def empty : Environment := ⟨[]⟩

def get? (env : Environment) (name : String) : Option String := env.entries.lookup name

def contains (env : Environment) (name : String) : Bool := (env.get? name).isSome

/-- Takes a name out. -/
def erase (env : Environment) (name : String) : Environment :=
  ⟨env.entries.filter fun entry => entry.1 != name⟩

def set (env : Environment) (name value : String) : Environment :=
  ⟨(name, value) :: (env.erase name).entries⟩

def size (env : Environment) : Nat := env.entries.length

/-- All variables, in the order of the code points of their names. -/
def sorted (env : Environment) : List (String × String) :=
  env.entries.mergeSort fun a b => decide (a.1 ≤ b.1)

theorem get?_erase (env : Environment) (name other : String) :
    (env.erase name).get? other = if other = name then none else env.get? other := by
  simp only [erase, get?]
  induction env.entries with
  | nil => simp
  | cons entry rest ih => grind

theorem get?_set (env : Environment) (name value other : String) :
    (env.set name value).get? other = if other = name then some value else env.get? other := by
  have erased := env.get?_erase name other
  grind [set, get?]

end Environment

/-- Names of variables are letters and digits, at least one. -/
def isIdentifier (name : String) : Bool := !name.isEmpty && name.toList.all Text.isAlphanumeric

end LineConsole
