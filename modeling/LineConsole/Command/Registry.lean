import LineConsole.Command

/-! # Registry of commands

The commands of a shell in the order of registration. A name stands for every command whose name it
matches; these are tried in the order of their counts of required parameters, and in the order of
registration where the counts agree.
-/

namespace LineConsole

/-- Equality of names that takes an ASCII letter and its other case for the same. -/
def equalIgnoringCase (a b : String) : Bool := a.toList.map Char.toLower == b.toList.map Char.toLower

structure Registry (H : Type) where
  commands : List (Command H)
  caseSensitive : Bool
  deriving DecidableEq, Repr

namespace Registry

variable {H : Type}

def empty (caseSensitive : Bool) : Registry H := ⟨[], caseSensitive⟩

def register (r : Registry H) (command : Command H) : Registry H :=
  { r with commands := r.commands ++ [command] }

/-- Whether two names stand for the same commands. -/
def sameName (r : Registry H) (a b : String) : Bool :=
  if r.caseSensitive then a == b else equalIgnoringCase a b

/-- The commands that a name stands for, in the order in which they are tried. -/
def candidates (r : Registry H) (name : String) : List (Command H) :=
  (r.commands.filter fun c => r.sameName c.name name).mergeSort
    fun a b => a.requiredCount ≤ b.requiredCount

/-- The first candidate that takes a count of arguments. -/
def find? (r : Registry H) (name : String) (count : Nat) : Option (Command H) :=
  (r.candidates name).find? (·.accepts count)

/-- Each name once, in the spelling and the order of its first registration. -/
def names (r : Registry H) : List String :=
  r.commands.foldl (fun names c =>
    if names.any (r.sameName · c.name) then names else names ++ [c.name]) []

theorem mem_candidates {r : Registry H} {name : String} {c : Command H} :
    c ∈ r.candidates name ↔ c ∈ r.commands ∧ r.sameName c.name name := by
  rw [candidates, (List.mergeSort_perm _ _).mem_iff, List.mem_filter]

theorem sameName_refl (r : Registry H) (name : String) : r.sameName name name := by
  cases h : r.caseSensitive <;> simp [sameName, equalIgnoringCase, h]

theorem sameName_comm (r : Registry H) (a b : String) : r.sameName a b = r.sameName b a := by
  simp only [sameName, equalIgnoringCase]
  split <;> exact Bool.beq_comm ..

end Registry

end LineConsole
