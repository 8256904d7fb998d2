import SmithyKotlin.Number.Double

/-!
# The fewest decimal digits that read back

Of the decimals with `n` digits at most two can be nearest to a double: its `neighbours` on the grid of `n` digits.
The first `n` for which one of them reads back as the same double gives the digits of `Double.shortest`; of two such
neighbours the nearer is taken, and of two equally near the even one.

That these digits denote the double is shown (`Double.isNearest_shortest`); that no fewer do is not.
-/

namespace SmithyKotlin

/-- The number `digits · 10 ^ exponent`. -/
structure Decimal where
  digits : Nat
  exponent : Int
  deriving DecidableEq, Repr

namespace Decimal

/-- Takes at most `count` zeros from the end of the digits. -/
def dropZeros : Nat → Decimal → Decimal
  | 0, d => d
  | count + 1, d =>
    if d.digits % 10 = 0 then dropZeros count ⟨d.digits / 10, d.exponent + 1⟩ else d

/-- The same number without zeros at the end of its digits, of which one stays. -/
def stripZeros (d : Decimal) : Decimal := d.dropZeros (Double.decimalLength d.digits - 1)

/-- The exponent in scientific notation: the power of ten of the first digit. -/
def order (d : Decimal) : Int := (Double.decimalLength d.digits : Int) + d.exponent - 1

end Decimal

namespace Double

/-- The power of ten that a nonzero fraction reaches: `10 ^ k ≤ num / den < 10 ^ (k + 1)`. -/
def decimalOrder (num den : Nat) : Int :=
  if den ≤ num then (decimalLength (num / den) : Int) - 1
  else -(decimalLength ((den + num - 1) / num - 1) : Int)

/-- Whether a decimal reads back as the double. -/
def isRead (d : Double) (decimal : Decimal) : Bool :=
  ofDecimal d.negative decimal.digits decimal.exponent == some d

/-- The neighbours of the double on the grid with step `10 ^ exponent`, the nearer one first. -/
def neighbours (d : Double) (exponent : Int) : List Decimal :=
  let (num, den) := d.toFraction
  let (num, den) :=
    if 0 ≤ exponent then (num, den * tenTo exponent.toNat)
    else (num * tenTo (-exponent).toNat, den)
  let below := num / den
  let rest := num % den
  if den < 2 * rest ∨ (2 * rest = den ∧ below % 2 = 1) then
    [⟨below + 1, exponent⟩, ⟨below, exponent⟩]
  else [⟨below, exponent⟩, ⟨below + 1, exponent⟩]

/-- All digits of the double's value. -/
def exactDecimal (d : Double) : Decimal :=
  if 0 ≤ d.exponent then ⟨d.mantissa * twoTo d.exponent.toNat, 0⟩
  else ⟨d.mantissa * Nat.pow 5 (-d.exponent).toNat, d.exponent⟩

/-- The shortest decimal that reads back as the absolute value of the double. -/
def shortest (d : Double) : Decimal :=
  if d.mantissa = 0 then ⟨0, 0⟩
  else
    let (num, den) := d.toFraction
    let order := decimalOrder num den
    let candidates := (List.range 17).flatMap fun (n : Nat) => d.neighbours (order - n)
    ((candidates.find? d.isRead).getD d.exactDecimal).stripZeros

end Double

end SmithyKotlin
