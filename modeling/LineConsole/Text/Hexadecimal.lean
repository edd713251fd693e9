/-! # Hexadecimal digits

The sixteen digits, the letters in either case. Numbers in smaller bases use the first of them.
-/

namespace LineConsole.Text

/-- The value of a digit. -/
def hexDigit? (c : Char) : Option Nat :=
  if c.isDigit then some (c.toNat - 48)
  else if 'a' ≤ c ∧ c ≤ 'f' then some (c.toNat - 87)
  else if 'A' ≤ c ∧ c ≤ 'F' then some (c.toNat - 55)
  else none

/-- The number that digits of a base denote, zero if there are none. -/
def baseNumber? (base : Nat) (digits : List Char) : Option Nat :=
  digits.foldlM (fun high c => do
    let d ← hexDigit? c
    if d < base then some (high * base + d) else none) 0

/-- The number that hexadecimal digits denote. -/
def hexNumber? (digits : List Char) : Option Nat := baseNumber? 16 digits

end LineConsole.Text
