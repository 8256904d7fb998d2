import SmithyKotlin.Number.Double

/-!
# Numbers

A `Number` of a document is an integer or a double; the two are never mixed, so that `1` and `1.0` are told apart.
Which of the two a text denotes is decided by `Lexeme.numberOf`.
-/

namespace SmithyKotlin

inductive Number where
  | integer (value : Int)
  | double (value : Double)
  deriving DecidableEq, Repr

end SmithyKotlin
