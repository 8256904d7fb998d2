import SmithyKotlin.Union.Basic

/-!
# Writing union declarations

`UnionDeclaration.emit` are the instructions that write a sealed class: its variants with blank lines between them
(`emitVariant`, `emitUnknown`), then the two accessors of each variant (`emitAccessors`).  Inside the class the name
of a variant hides any type with that name, so a value type that shares it is written with its package
(`valueReference`).
-/

namespace SmithyKotlin

/-- A reference to a symbol and the text to be written for it. -/
structure TypeReference where
  instruction : Instruction
  text : String

namespace UnionDeclaration

/-- The type of a value inside the class. -/
def valueReference (shadowed : List String) (symbol : Symbol) : TypeReference :=
  if shadowed.contains symbol.rawName then ⟨.qualifiedReference symbol, symbol.display⟩
  else ⟨.reference symbol, symbol.referenceText⟩

/-- The comparison of a variant whose value a data class would compare wrongly. -/
def emitEquality (variant : Variant) : List Instruction :=
  block "override fun hashCode(): kotlin.Int \x7b" "\x7d"
      [.write ("return " ++ variant.strategy.hashExpression "value")]
    ++ .blank ::
    block "override fun equals(other: kotlin.Any?): kotlin.Boolean \x7b" "\x7d"
      [.write "if (this === other) return true",
       .write "if (other == null || this::class != other::class) return false",
       .blank,
       .write ("other as " ++ variant.name),
       .blank,
       .write ("return " ++ variant.strategy.equalExpression "value" "other.value")]

/-- The data class of a variant. -/
def emitVariant (unionName : String) (shadowed : List String) (variant : Variant) :
    List Instruction :=
  let type := valueReference shadowed variant.symbol
  let declaration :=
    "public data class " ++ variant.name ++ "(val value: " ++ type.text ++ ") : " ++ unionName ++ "()"
  emitDocumentation variant.documentation variant.deprecated ++ type.instruction ::
    if variant.strategy.needsOwnEquality then
      block (declaration ++ " \x7b") "\x7d" (emitEquality variant)
    else [.write declaration]

/-- The object of the catch-all variant. -/
def emitUnknown (unionName unknownName : String) : List Instruction :=
  [.doc "A variant this client does not recognize.",
   .write ("public object " ++ unknownName ++ " : " ++ unionName ++ "()")]

def emitAccessors (unionName : String) (shadowed : List String) (variant : Variant) :
    List Instruction :=
  let type := valueReference shadowed variant.symbol
  let optional := valueReference shadowed (variant.symbol.asNullable variant.symbol.boxed)
  let qualified := unionName ++ "." ++ variant.name
  [type.instruction, optional.instruction,
   .doc ("Casts and retrieves the value of the [" ++ variant.name
     ++ "] variant.\n@throws kotlin.ClassCastException if this union is a different variant"),
   .write ("public fun " ++ variant.assertAccessor ++ "(): " ++ type.text ++ " = (this as "
     ++ qualified ++ ").value"),
   .blank,
   .doc ("Retrieves the value of the [" ++ variant.name
     ++ "] variant, or null if this union is a different variant."),
   .write ("public fun " ++ variant.optionalAccessor ++ "(): " ++ optional.text ++ " = (this as? "
     ++ qualified ++ ")?.value")]

/-- What stands inside the sealed class. -/
def emitBody (declaration : UnionDeclaration) : List Instruction :=
  let unionName := declaration.symbol.qualifiedName
  let shadowed := declaration.variantNames
  declaration.variants.flatMap (fun variant => emitVariant unionName shadowed variant ++ [.blank])
    ++ emitUnknown unionName declaration.unknownName
    ++ declaration.variants.flatMap (fun variant =>
      .blank :: emitAccessors unionName shadowed variant)

/-- The instructions that write the declaration. -/
def emit (declaration : UnionDeclaration) : List Instruction :=
  emitDocumentation declaration.documentation declaration.deprecated
    ++ block ("public sealed class " ++ declaration.symbol.name ++ " \x7b") "\x7d"
      declaration.emitBody

end UnionDeclaration

end SmithyKotlin
