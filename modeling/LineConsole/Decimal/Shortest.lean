import LineConsole.Decimal.Binary64

/-! # The shortest decimal of a number

Among the decimals that round to a binary64 number, the ones with the fewest digits are shortest, and
of those the nearest is its text. Each count of digits has a grid of decimals; only the two
neighbours of the number on a grid can be its nearest points there.
-/

namespace LineConsole.Decimal

/-- `digits * 10 ^ exponent`. -/
structure Scientific where
  digits : Nat
  exponent : Int
  deriving DecidableEq, Repr

/-- A positive number as a fraction, with the fractions halfway to its neighbours over the same
denominator. The ends of the interval round to the number iff its significand is even. -/
structure RoundingInterval where
  num : Nat
  den : Nat
  low : Nat
  high : Nat
  closed : Bool
  deriving DecidableEq, Repr

/-- Everything is counted in quarters of the last place, since below a power of two the neighbour is
only half a place away. -/
def Binary64.roundingInterval (x : Binary64) : RoundingInterval :=
  let m := x.significand
  let quarter := x.scale - 2
  let up := if 0 ≤ quarter then Nat.pow 2 quarter.toNat else 1
  let below := if m = Nat.pow 2 52 ∧ 1 < x.exponentField then 1 else 2
  { num := 4 * m * up
    den := if 0 ≤ quarter then 1 else Nat.pow 2 (-quarter).toNat
    low := (4 * m - below) * up
    high := (4 * m + 2) * up
    closed := m % 2 = 0 }

namespace RoundingInterval

/-- Whether `k / step` lies in the interval, `step` being one over the grid's unit. -/
def holds (r : RoundingInterval) (k unitNum unitDen : Nat) : Bool :=
  let point := k * unitNum * r.den
  let low := r.low * unitDen
  let high := r.high * unitDen
  if r.closed then low ≤ point && point ≤ high else low < point && point < high

/-- The least `k` with `num / den < 10 ^ k`, counted up from `k` for at most `fuel` steps. -/
def orderFrom (num den : Nat) : Nat → Int → Int
  | 0, k => k
  | fuel + 1, k =>
    let below := if 0 ≤ k then num < den * Nat.pow 10 k.toNat else num * Nat.pow 10 (-k).toNat < den
    if below then k else orderFrom num den fuel (k + 1)

/-- A lower bound for the decimal order, from the binary one. -/
def order (r : RoundingInterval) : Int :=
  let guess := (((r.num.log2 : Int) - r.den.log2 - 1) * 30103) / 100000
  orderFrom r.num r.den 4 guess

/-- `k` on the grid of decimals with `count` digits; the grid's end is the power of ten above it. -/
def gridPoint (count k : Nat) (e : Int) : Scientific :=
  if k = Nat.pow 10 count then ⟨1, e + count⟩ else ⟨k, e⟩

/-- The decimal with `count` digits that rounds to the number, the nearer of two; a tie goes up. -/
def onGrid (r : RoundingInterval) (count : Nat) : Option Scientific :=
  let e := r.order - count
  let unitNum := if 0 ≤ e then Nat.pow 10 e.toNat else 1
  let unitDen := if 0 ≤ e then 1 else Nat.pow 10 (-e).toNat
  let lower := r.num * unitDen / (r.den * unitNum)
  let nearer := if r.num * unitDen * 2 < (2 * lower + 1) * (r.den * unitNum) then lower else lower + 1
  let other := if nearer = lower then lower + 1 else lower
  if r.holds nearer unitNum unitDen then some (gridPoint count nearer e)
  else if r.holds other unitNum unitDen then some (gridPoint count other e)
  else none

end RoundingInterval

/-- The shortest decimal of a positive finite number; seventeen digits always suffice. -/
def Binary64.shortest (x : Binary64) : Scientific :=
  let r := x.roundingInterval
  ((List.range' 1 17).findSome? r.onGrid).getD ⟨r.num / r.den, 0⟩

/-- Positional notation without an exponent and without a point behind the last digit. -/
def Scientific.text (s : Scientific) : List Char :=
  let digits := Nat.toDigits 10 s.digits
  if 0 ≤ s.exponent then digits ++ List.replicate s.exponent.toNat '0'
  else
    let places := (-s.exponent).toNat
    let padded := List.replicate (places + 1 - digits.length) '0' ++ digits
    padded.take (padded.length - places) ++ '.' :: padded.drop (padded.length - places)

/-- The shortest text of a number; zero keeps its sign. -/
def Binary64.text (x : Binary64) : String :=
  if x.isNaN then "NaN"
  else
    let body := if x.isInfinite then "inf".toList
      else if x.magnitude = 0 then ['0'] else x.shortest.text
    String.ofList (if x.negative then '-' :: body else body)

end LineConsole.Decimal
