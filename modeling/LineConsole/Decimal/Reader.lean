import LineConsole.Decimal.Binary64
import LineConsole.Decimal.Integer

/-! # Reading binary64 numbers

A number is an optional sign and then either one of the words `inf`, `infinity` and `nan` in any
case, or digits with at most one point among or around them and an optional exponent.
-/

namespace LineConsole.Decimal

/-- The text after an exponent mark: an optional sign and at least one digit. -/
def readExponent? : List Char → Option Int
  | [] => some 0
  | c :: cs => if c = 'e' ∨ c = 'E' then readInt? cs else none

/-- Digits, at most one point and an optional exponent, as `m * 10 ^ e`. -/
def readScientific? (cs : List Char) : Option (Nat × Int) :=
  let whole := cs.takeWhile Char.isDigit
  let afterWhole := cs.dropWhile Char.isDigit
  let (places, tail) := match afterWhole with
    | '.' :: rest => (rest.takeWhile Char.isDigit, rest.dropWhile Char.isDigit)
    | rest => ([], rest)
  if whole.isEmpty && places.isEmpty then none
  else (readExponent? tail).map fun e => (natFrom 0 (whole ++ places), e - places.length)

/-- A number without its sign. -/
def readUnsigned? (negative : Bool) (cs : List Char) : Option Binary64 :=
  let word := String.ofList (cs.map Char.toLower)
  if word = "inf" ∨ word = "infinity" then some (.withSign negative Binary64.infinite)
  else if word = "nan" then some .nan
  else (readScientific? cs).map fun (m, e) => .nearestDecimal negative m e

def readBinary64? : List Char → Option Binary64
  | '-' :: cs => readUnsigned? true cs
  | '+' :: cs => readUnsigned? false cs
  | cs => readUnsigned? false cs

end LineConsole.Decimal
