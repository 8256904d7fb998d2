import SmithyKotlin.Number.Text
import SmithyKotlin.Text.Quoted

/-!
# Faults of documents

A `Fault` says why a document cannot be decoded: it is no JSON (`malformed`, without a place in the text), or a
value in it has the wrong form.  `Fault.message` is its text; where in the document it was found is left out.
-/

namespace SmithyKotlin

/-- What stands where something else was expected. -/
inductive Seen where
  | null
  | bool (value : Bool)
  | number (value : Number)
  | string (value : String)
  | sequence
  | map
  deriving DecidableEq, Repr

def Seen.text : Seen → String
  | null => "null"
  | bool value => "boolean `" ++ (if value then "true" else "false") ++ "`"
  | number (.integer value) => "integer `" ++ integerText value ++ "`"
  | number (.double value) => "floating point `" ++ value.toText ++ "`"
  | string value => "string " ++ Text.quoted value
  | sequence => "sequence"
  | map => "map"

inductive Fault where
  /-- The text is not JSON. -/
  | malformed
  | wrongType (seen : Seen) (expected : String)
  | wrongValue (seen : Seen) (expected : String)
  | missingField (name : String)
  | duplicateField (name : String)
  | unknownVariant (name : String) (expected : List String)
  | wrongLength (length : Nat) (expected : String)
  deriving DecidableEq, Repr

namespace Fault

def message : Fault → String
  | malformed => "<syntax>"
  | wrongType seen expected => "invalid type: " ++ seen.text ++ ", expected " ++ expected
  | wrongValue seen expected => "invalid value: " ++ seen.text ++ ", expected " ++ expected
  | missingField name => "missing field `" ++ name ++ "`"
  | duplicateField name => "duplicate field `" ++ name ++ "`"
  | unknownVariant name expected =>
    "unknown variant `" ++ name ++ "`, expected one of "
      ++ ", ".intercalate (expected.map fun e => "`" ++ e ++ "`")
  | wrongLength length expected =>
    "invalid length " ++ Nat.repr length ++ ", expected " ++ expected

/-- A count of elements, for the faults that name one. -/
def elements (count : Nat) : String :=
  Nat.repr count ++ (if count = 1 then " element" else " elements")

end Fault

end SmithyKotlin
