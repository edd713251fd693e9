/-! # Binary64 numbers

A number is its 64-bit word: a sign, eleven bits of exponent and 52 of fraction. Fractions of natural
numbers are rounded to the nearest such number, a tie going to the even one, in exact arithmetic;
what rounds past the largest finite number is infinite.
-/

namespace LineConsole.Decimal

structure Binary64 where
  bits : UInt64
  deriving DecidableEq, Repr

namespace Binary64

def negative (x : Binary64) : Bool := Nat.pow 2 63 ≤ x.bits.toNat

/-- The word without its sign. -/
def magnitude (x : Binary64) : Nat := x.bits.toNat % Nat.pow 2 63

def exponentField (x : Binary64) : Nat := x.magnitude / Nat.pow 2 52

def fraction (x : Binary64) : Nat := x.magnitude % Nat.pow 2 52

/-- The magnitude of the infinite words. -/
def infinite : Nat := 2047 * Nat.pow 2 52

def isNaN (x : Binary64) : Bool := infinite < x.magnitude

def isInfinite (x : Binary64) : Bool := x.magnitude == infinite

/-- A finite number is its significand times two to the power `scale`. -/
def significand (x : Binary64) : Nat :=
  if x.exponentField = 0 then x.fraction else Nat.pow 2 52 + x.fraction

def scale (x : Binary64) : Int := max 1 (x.exponentField : Int) - 1075

def withSign (negative : Bool) (magnitude : Nat) : Binary64 :=
  ⟨UInt64.ofNat (if negative then Nat.pow 2 63 + magnitude else magnitude)⟩

/-- The one quiet word that stands for all that is not a number. -/
def nan : Binary64 := ⟨0x7ff8000000000000⟩

/-- The quotient to the nearest natural number, a half going to the even one. -/
def roundedQuotient (num den : Nat) : Nat :=
  let q := num / den
  let twice := 2 * (num % den)
  if den < twice ∨ (twice = den ∧ q % 2 = 1) then q + 1 else q

/-- The largest `k` with `2 ^ k * den ≤ num`, for positive numbers. -/
def binaryOrder (num den : Nat) : Int :=
  let k : Int := (num.log2 : Int) - den.log2
  let reached := if 0 ≤ k then den * Nat.pow 2 k.toNat ≤ num else den ≤ num * Nat.pow 2 (-k).toNat
  if reached then k else k - 1

/-- The magnitude of the number nearest to `num / den`. -/
def nearest (num den : Nat) : Nat :=
  if num = 0 then 0
  else
    let scale := max (binaryOrder num den - 52) (-1074)
    let m := if 0 ≤ scale then roundedQuotient num (den * Nat.pow 2 scale.toNat)
      else roundedQuotient (num * Nat.pow 2 (-scale).toNat) den
    min infinite ((scale + 1074).toNat * Nat.pow 2 52 + m)

/-- The number nearest to `m * 10 ^ e`. What lies beyond every finite number, or below half of the
smallest, needs no arithmetic. -/
def nearestDecimal (negative : Bool) (m : Nat) (e : Int) : Binary64 :=
  let order := ((Nat.toDigits 10 m).length : Int) + e
  withSign negative <|
    if m = 0 ∨ order < -400 then 0
    else if 400 < order then infinite
    else if 0 ≤ e then nearest (m * Nat.pow 10 e.toNat) 1
    else nearest m (Nat.pow 10 (-e).toNat)

def ofInt (i : Int) : Binary64 := nearestDecimal (i < 0) i.natAbs 0

end Binary64

end LineConsole.Decimal
