import SmithyKotlin.Model.Basic
import SmithyKotlin.Naming
import SmithyKotlin.Number.Text

/-!
# Default values

`defaultLiteral?` is the Kotlin expression for the default of a member.  Its own default trait counts, and that of
its target if it has none (`Member.effectiveDefault?`).  Defaults without an expression of their own (blobs,
timestamps, documents, values of another type than the target) give none, so that the value has to be passed.

Whether an expression means the default is a question about Kotlin, which is settled in `Proofs/Structure/Defaults`.
-/

namespace SmithyKotlin

/-- The default that counts for a member. -/
def Member.effectiveDefault? (member : Member) (target : Shape) : Option Json :=
  (member.traits.get? Trait.default).or (target.traits.get? Trait.default)

/-- A number with a point or an exponent. -/
def doubleLiteral (number : Number) : String :=
  let text := number.toText
  if text.toList.any fun c => c = '.' || c = 'e' || c = 'E' then text else text ++ ".0"

/-- The Kotlin expression for a value of the given type. -/
def defaultLiteral? (type : ShapeType) (value : Json) : Option String :=
  match type, value with
  | .boolean, .bool value => some (if value then "true" else "false")
  | .byte, .number number => some number.toText
  | .short, .number number => some number.toText
  | .integer, .number number => some number.toText
  | .intEnum, .number number => some number.toText
  | .long, .number number => some (number.toText ++ "L")
  | .float, .number number => some (number.toText ++ "f")
  | .double, .number number => some (doubleLiteral number)
  | .string, .string text => some (Naming.stringLiteral text)
  | .enum, .string text => some (Naming.stringLiteral text)
  | .list, .array [] => some "emptyList()"
  | .map, .object [] => some "emptyMap()"
  | _, _ => none

end SmithyKotlin
