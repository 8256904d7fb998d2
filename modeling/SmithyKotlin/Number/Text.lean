import SmithyKotlin.Number.Basic
import SmithyKotlin.Number.Shortest

/-!
# Numbers as text

`Number.toText` writes an integer in plain digits, and a double as its shortest digits (`Decimal.toText`):
positional while the power of ten of the first digit is from -5 to 15, with an exponent otherwise.  Positional text
always has a point, so that a double never looks like an integer.
-/

namespace SmithyKotlin

def integerText (n : Int) : String :=
  if n < 0 then "-" ++ Nat.repr n.natAbs else Nat.repr n.natAbs

namespace Decimal

/-- The decimal without exponent: `120.0`, `1.5`, `0.00012`. -/
def positional (d : Decimal) : List Char :=
  let digits := Nat.toDigits 10 d.digits
  if 0 ≤ d.exponent then digits ++ List.replicate d.exponent.toNat '0' ++ ['.', '0']
  else
    let places := (-d.exponent).toNat
    if places < digits.length then
      digits.take (digits.length - places) ++ '.' :: digits.drop (digits.length - places)
    else '0' :: '.' :: List.replicate (places - digits.length) '0' ++ digits

/-- One digit before the point and a signed exponent: `1e+16`, `1.25e-7`. -/
def scientific (d : Decimal) : List Char :=
  let fraction := (Nat.toDigits 10 d.digits).drop 1
  (Nat.toDigits 10 d.digits).take 1 ++ (if fraction.isEmpty then [] else '.' :: fraction)
    ++ 'e' :: (if d.order < 0 then '-' else '+') :: Nat.toDigits 10 d.order.natAbs

/-- Positional text for the orders from `-5` to `15`, scientific text for the others. -/
def toText (d : Decimal) : List Char :=
  if -5 ≤ d.order ∧ d.order ≤ 15 then d.positional else d.scientific

end Decimal

def Double.toText (d : Double) : String :=
  String.ofList ((if d.negative then ['-'] else []) ++ d.shortest.toText)

def Number.toText : Number → String
  | .integer value => integerText value
  | .double value => value.toText

end SmithyKotlin
