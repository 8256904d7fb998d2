import SmithyKotlin.Model.Traits
import SmithyKotlin.Naming
import SmithyKotlin.Writer.Basic

/-!
# Documentation and deprecation

`emitDocumentation` writes what stands before a declaration: its documentation comment and the annotation of
deprecated declarations, with the text of the trait or `defaultDeprecation`.  Which declarations it is called for is
a matter of the two emissions.
-/

namespace SmithyKotlin

def defaultDeprecation : String := "No longer recommended for use."

/-- The message of the deprecation trait, if the trait is there. -/
def TraitMap.deprecation? (traits : TraitMap) : Option String :=
  (traits.get? Trait.deprecated).map fun value =>
    let text := ((value.field? "message").bind Json.asString?).getD defaultDeprecation
    match (value.field? "since").bind Json.asString? with
    | some since => text ++ " (since " ++ since ++ ")"
    | none => text

/-- The documentation comment of a declaration; blank documentation gives none. -/
def documentationComment (documentation : Option String) : List Instruction :=
  match documentation with
  | some text => if (Text.trim text).isEmpty then [] else [.doc text]
  | none => []

def deprecationAnnotation (deprecated : Option String) : List Instruction :=
  (deprecated.map fun message =>
    Instruction.write ("@Deprecated(" ++ Naming.stringLiteral message ++ ")")).toList

def emitDocumentation (documentation deprecated : Option String) : List Instruction :=
  documentationComment documentation ++ deprecationAnnotation deprecated

end SmithyKotlin
