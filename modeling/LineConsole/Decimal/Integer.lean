/-! # Integers in decimal

The text of an integer is an optional sign and at least one ASCII digit. A range is checked on the
value that the text denotes, so a text never wraps.
-/

namespace LineConsole.Decimal

/-- The number that a run of digits denotes, continuing from `high`. -/
def natFrom (high : Nat) : List Char → Nat
  | [] => high
  | c :: rest => natFrom (high * 10 + (c.toNat - 48)) rest

/-- A non-empty run of ASCII digits. -/
def readNat? (cs : List Char) : Option Nat :=
  if cs.isEmpty || !cs.all Char.isDigit then none else some (natFrom 0 cs)

/-- Digits with at most one sign in front. -/
def readInt? : List Char → Option Int
  | '-' :: cs => (readNat? cs).map fun n => -(n : Int)
  | '+' :: cs => (readNat? cs).map fun n => (n : Int)
  | cs => (readNat? cs).map fun n => (n : Int)

/-- An integer that fits into 64 bits with sign. -/
def int64? (i : Int) : Option Int64 :=
  if Int64.minValue.toInt ≤ i ∧ i ≤ Int64.maxValue.toInt then some (Int64.ofInt i) else none

/-- An integer that fits into 32 bits with sign. -/
def int32? (i : Int) : Option Int32 :=
  if Int32.minValue.toInt ≤ i ∧ i ≤ Int32.maxValue.toInt then some (Int32.ofInt i) else none

/-- The decimal text of a natural number, without leading zeros. -/
def natText (n : Nat) : String := String.ofList (Nat.toDigits 10 n)

/-- The decimal text of an integer, with a sign only if it is negative. -/
def intText : Int → String
  | .ofNat n => natText n
  | .negSucc n => String.ofList ('-' :: Nat.toDigits 10 (n + 1))

/-- The text of a number, moved to the right end of a field. -/
def paddedLeft (width : Nat) (s : String) : String :=
  String.ofList (List.replicate (width - s.length) ' ' ++ s.toList)

/-- A text, moved to the left end of a field. -/
def paddedRight (width : Nat) (s : String) : String :=
  String.ofList (s.toList ++ List.replicate (width - s.length) ' ')

end LineConsole.Decimal
