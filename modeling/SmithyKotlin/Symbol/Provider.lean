import SmithyKotlin.Symbol.KotlinType

/-!
# Symbol providers

Whatever plans a declaration asks a `SymbolProvider` for its symbols.  `SymbolProvider.kotlin` answers with the
types of `KotlinType`, and a member may be null unless it is required or has a default (`Member.isNonNull`).  Most
of what is shown of plans holds for any provider.
-/

namespace SmithyKotlin

structure SymbolProvider where
  shapeSymbol : Model → Shape → Except CodegenError Symbol
  memberSymbol : Model → Member → Except CodegenError Symbol

/-- Whether a member always has a value: its own default, also null, hides that of its target. -/
def Member.isNonNull (member : Member) (target : Shape) : Bool :=
  member.isRequired || member.traits.hasDefault
    || (target.traits.hasDefault && !member.traits.contains Trait.default)

namespace SymbolProvider

def kotlinShape (settings : Settings) (model : Model) (shape : Shape) :
    Except CodegenError Symbol :=
  (KotlinType.ofShape model shape).map (KotlinType.symbol settings)

def kotlinMember (settings : Settings) (model : Model) (member : Member) :
    Except CodegenError Symbol := do
  let target ← model.find member.target
  let symbol ← kotlinShape settings model target
  return if member.isNonNull target then symbol else symbol.asNullable target.type.isPrimitive

/-- The provider of Kotlin types. -/
def kotlin (settings : Settings) : SymbolProvider :=
  ⟨kotlinShape settings, kotlinMember settings⟩

/-- A provider that knows some shapes and members by their ids and asks another one for the rest. -/
def overriding (known : SortedMap Symbol) (provider : SymbolProvider) : SymbolProvider where
  shapeSymbol model shape := (known.get? shape.id.text).elim (provider.shapeSymbol model shape) .ok
  memberSymbol model member :=
    (known.get? member.id.text).elim (provider.memberSymbol model member) .ok

end SymbolProvider

end SmithyKotlin
