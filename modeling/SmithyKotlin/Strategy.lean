import SmithyKotlin.Model.ShapeType

/-!
# Hashing and comparing values

A `Strategy` says how a value takes part in `hashCode` and `equals` of a generated class.  Its `Basis` depends on
the type of the target only, for a blob also on whether it is a stream (`Basis.ofTarget`); whether the value may be
null decides the form of `hashExpression`.  `equalExpression` and `differExpression` are the comparisons.  What they
mean when they are run is modelled in `Proofs/Structure/Evaluation`.
-/

namespace SmithyKotlin

/-- What a value is hashed and compared by. -/
inductive Basis where
  /-- The value is an `Int` itself. -/
  | numeric
  /-- The value is widened to an `Int`. -/
  | widened
  /-- The reference: a stream cannot be read twice. -/
  | identity
  /-- The bytes of an array. -/
  | content
  /-- The value's own `hashCode` and `equals`. -/
  | structural
  deriving DecidableEq, Repr

/-- The basis for a target of the given type; streaming matters for blobs only. -/
def Basis.ofTarget (target : ShapeType) (streaming : Bool) : Basis :=
  match target with
  | .integer | .intEnum => .numeric
  | .byte | .short => .widened
  | .blob => if streaming then .identity else .content
  | _ => .structural

/-- A basis, and whether the value may be null. -/
structure Strategy where
  basis : Basis
  nullable : Bool
  deriving DecidableEq, Repr

namespace Strategy

def select (target : ShapeType) (nullable streaming : Bool) : Strategy :=
  ⟨Basis.ofTarget target streaming, nullable⟩

/-- Whether the comparison of a data class would be wrong: arrays compare by reference there. -/
def needsOwnEquality (strategy : Strategy) : Bool := strategy.basis = .content

def comparesContents (strategy : Strategy) : Bool := strategy.basis ≠ .identity

/-- The call that gives the hash of a value, empty when the value is its own hash. -/
def hashCall : Basis → String
  | .numeric => ""
  | .widened => "toInt()"
  | .identity => "hashCode()"
  | .content => "contentHashCode()"
  | .structural => "hashCode()"

/-- The hash of a value as an expression of type `Int`; null counts as `0`. -/
def hashExpression (strategy : Strategy) (value : String) : String :=
  match strategy.basis, strategy.nullable with
  | .numeric, false => value
  | .numeric, true => value ++ " ?: 0"
  | basis, false => value ++ "." ++ hashCall basis
  | basis, true => value ++ "?." ++ hashCall basis ++ " ?: 0"

def equalExpression (strategy : Strategy) (lhs rhs : String) : String :=
  match strategy.basis with
  | .content => lhs ++ ".contentEquals(" ++ rhs ++ ")"
  | .identity => lhs ++ " === " ++ rhs
  | _ => lhs ++ " == " ++ rhs

def differExpression (strategy : Strategy) (lhs rhs : String) : String :=
  match strategy.basis with
  | .content => "!" ++ lhs ++ ".contentEquals(" ++ rhs ++ ")"
  | .identity => lhs ++ " !== " ++ rhs
  | _ => lhs ++ " != " ++ rhs

theorem select_nullable (target : ShapeType) (nullable streaming : Bool) :
    (select target nullable streaming).nullable = nullable := rfl

end Strategy

end SmithyKotlin
