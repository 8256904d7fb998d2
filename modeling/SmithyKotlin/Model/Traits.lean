import SmithyKotlin.Collections.SortedMap
import SmithyKotlin.Json.Basic

/-!
# Traits

A `TraitMap` has the traits of a shape or member: JSON values under the ids of the traits, in the order of the ids.
The ids that the generator knows have names in `Trait`; all others are carried along unread.
-/

namespace SmithyKotlin

abbrev TraitMap := SortedMap Json

namespace Trait

def documentation : String := "smithy.api#documentation"
def required : String := "smithy.api#required"
def default : String := "smithy.api#default"
def sensitive : String := "smithy.api#sensitive"
def streaming : String := "smithy.api#streaming"
def error : String := "smithy.api#error"
def deprecated : String := "smithy.api#deprecated"
def unitType : String := "smithy.api#unitType"
def sparse : String := "smithy.api#sparse"
def uniqueItems : String := "smithy.api#uniqueItems"

end Trait

namespace TraitMap

/-- The text of the documentation, if it is a text. -/
def documentation? (traits : TraitMap) : Option String :=
  (traits.get? Trait.documentation).bind Json.asString?

/-- Whether there is a default other than null. -/
def hasDefault (traits : TraitMap) : Bool :=
  (traits.get? Trait.default).any fun value => !value.isNull

end TraitMap

end SmithyKotlin
