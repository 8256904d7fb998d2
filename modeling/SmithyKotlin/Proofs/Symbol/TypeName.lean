import SmithyKotlin.Proofs.Outcome
import SmithyKotlin.Symbol.Provider
import SmithyKotlin.Writer.Basic

/-!
# The types that are written without their package

* `Symbol.typeName`: the type that a symbol names, its package and its name without arguments.
* `KotlinType.shortName?`: a type of the runtime is always written without its package, a generated type only where
  the package of the generated types does not read like one of Kotlin itself, and any other type never
  (`KotlinType.shortName?_eq_some_iff`).
* `Member.shortName?_eq_some_iff`: whether a member may be null changes nothing about that.

Arguments of a type are written with their packages in any case.
-/

namespace SmithyKotlin

/-- A type without type arguments, as a package and a name in it. -/
structure TypeName where
  package : String
  name : String
  deriving DecidableEq, Repr

namespace TypeName

/-- What an import of the type names. -/
def path (type : TypeName) : String := type.package ++ "." ++ type.name

theorem eq_of_path_eq {a b : TypeName} (hname : a.name = b.name) (hpath : a.path = b.path) :
    a = b := by
  obtain ⟨package, name⟩ := a
  obtain ⟨package', name'⟩ := b
  obtain rfl : name = name' := hname
  rw [path, path, String.append_left_inj, String.append_left_inj] at hpath
  obtain rfl : package = package' := hpath
  rfl

end TypeName

namespace Symbol

def typeName (symbol : Symbol) : TypeName := ⟨symbol.package, symbol.rawName⟩

/-- Whether a reference gives the name of the symbol without its package. -/
def isShort (symbol : Symbol) : Bool := symbol.package.isEmpty || !symbol.isBuiltin

theorem referenceText_eq (symbol : Symbol) :
    symbol.referenceText = symbol.marked
      (if symbol.isShort then symbol.name else symbol.package ++ "." ++ symbol.name) := by
  rw [referenceText, qualifiedName, qualify, isShort]
  cases hempty : symbol.package.isEmpty with
  | true => rw [if_pos rfl, ite_self, Bool.true_or, if_pos rfl]
  | false =>
    rw [if_neg Bool.false_ne_true, Bool.false_or]
    cases symbol.isBuiltin <;> rfl

theorem isShort_of_isBuiltin_eq_false {symbol : Symbol} (h : symbol.isBuiltin = false) :
    symbol.isShort = true := by
  rw [isShort, h, Bool.not_false, Bool.or_true]

/-- A symbol with a package is no builtin when it is written without the package. -/
theorem isBuiltin_eq_false_of_isShort {symbol : Symbol} (hempty : symbol.package.isEmpty = false)
    (h : symbol.isShort = true) : symbol.isBuiltin = false := by
  rw [isShort, hempty, Bool.false_or, Bool.not_eq_true'] at h
  exact h

theorem typeName_asNullable (symbol : Symbol) (boxed : Bool) :
    (symbol.asNullable boxed).typeName = symbol.typeName := rfl

theorem isShort_asNullable (symbol : Symbol) (boxed : Bool) :
    (symbol.asNullable boxed).isShort = symbol.isShort := rfl

/-- Depending on more changes nothing but the dependencies. -/
theorem exists_dependingOnAll_eq (symbol : Symbol) (dependencies : List Dependency) :
    ∃ found, symbol.dependingOnAll dependencies = { symbol with dependencies := found } := by
  induction dependencies generalizing symbol with
  | nil => exact ⟨symbol.dependencies, rfl⟩
  | cons dependency rest ih =>
    obtain ⟨found, hfound⟩ := ih (symbol.dependingOn dependency)
    have hcons : symbol.dependingOnAll (dependency :: rest) =
        (symbol.dependingOn dependency).dependingOnAll rest := rfl
    refine ⟨found, ?_⟩
    rw [hcons, hfound, dependingOn]
    split <;> rfl

theorem package_dependingOnAll (symbol : Symbol) (dependencies : List Dependency) :
    (symbol.dependingOnAll dependencies).package = symbol.package := by
  obtain ⟨found, hfound⟩ := symbol.exists_dependingOnAll_eq dependencies
  rw [hfound]

theorem nullable_dependingOnAll (symbol : Symbol) (dependencies : List Dependency) :
    (symbol.dependingOnAll dependencies).nullable = symbol.nullable := by
  obtain ⟨found, hfound⟩ := symbol.exists_dependingOnAll_eq dependencies
  rw [hfound]

theorem display_dependingOnAll (symbol : Symbol) (dependencies : List Dependency) :
    (symbol.dependingOnAll dependencies).display = symbol.display := by
  obtain ⟨found, hfound⟩ := symbol.exists_dependingOnAll_eq dependencies
  rw [hfound]
  rfl

/-- A symbol of Kotlin itself is never written without its package. -/
theorem isShort_eq_false {symbol : Symbol}
    (hpackage : symbol.package = "kotlin" ∨ symbol.package = "kotlin.collections") :
    symbol.isShort = false := by
  rw [isShort, isBuiltin]
  rcases hpackage with h | h <;> rw [h] <;> decide +kernel

end Symbol

namespace Runtime

/-- The types of the client runtime that generated code names. -/
def types : List TypeName :=
  [⟨contentPackage, "BigInteger"⟩, ⟨contentPackage, "BigDecimal"⟩, ⟨contentPackage, "ByteStream"⟩,
   ⟨contentPackage, "Document"⟩, ⟨timePackage, "Instant"⟩, ⟨package, "ServiceException"⟩]

/-- Names of the runtime are single words, and its packages are none of Kotlin itself. -/
theorem of_mem_types {type : TypeName} (hmem : type ∈ types) :
    '.' ∉ type.name.toList ∧ Text.before '<' type.name = type.name ∧
      type.package.isEmpty = false ∧
      "kotlin".toList.isPrefixOf type.package.toList = false := by
  revert type
  decide +kernel

theorem eq_of_name_eq {a b : TypeName} (ha : a ∈ types) (hb : b ∈ types) (h : a.name = b.name) :
    a = b := by
  have hall : ∀ a ∈ types, ∀ b ∈ types, a.name = b.name → a = b := by decide +kernel
  exact hall a ha b hb h

end Runtime

/-- The package of the generated types has its own last segment. -/
theorem Settings.modelPackage_ne (settings : Settings) {package : String}
    (hsuffix : ¬ ".model".toList <:+ package.toList) : settings.modelPackage ≠ package := by
  rintro rfl
  refine hsuffix ⟨settings.packageName.toList, ?_⟩
  rw [modelPackage, String.toList_append]

theorem Runtime.package_ne_modelPackage {type : TypeName} (hmem : type ∈ types)
    (settings : Settings) : type.package ≠ settings.modelPackage := by
  have hsuffix : ∀ type ∈ types, ¬ ".model".toList <:+ type.package.toList := by
    decide +kernel
  exact (settings.modelPackage_ne (hsuffix type hmem)).symm

namespace KotlinType

/-- The type that is written without its package, if it is one. -/
def shortName? (settings : Settings) : KotlinType → Option TypeName
  | runtime package name => some ⟨package, name⟩
  | generated name =>
    if "kotlin".toList.isPrefixOf settings.modelPackage.toList then none
    else some ⟨settings.modelPackage, Text.before '<' name⟩
  | _ => none

/-- Whether a type is a named one, and of the runtime only what generated code names of it. -/
def isNamed : KotlinType → Bool
  | builtin _ => true
  | runtime package name => Runtime.types.contains ⟨package, name⟩
  | generated _ => true
  | _ => false

theorem isNamed_of_scalar? {shape : Shape} {type : KotlinType} (h : scalar? shape = some type) :
    type.isNamed = true := by
  have hall : (scalar? shape).all isNamed = true := by
    rw [scalar?]
    split <;> first
      | rfl
      | split <;> rfl
  rw [h] at hall
  exact hall

/-- A named type is written without its package when `shortName?` has it. -/
theorem shortName?_eq_some_iff {settings : Settings} {type : KotlinType} {short : TypeName}
    (hnamed : type.isNamed = true) :
    type.shortName? settings = some short ↔
      (type.symbol settings).isShort = true ∧ (type.symbol settings).typeName = short := by
  cases type with
  | builtin name =>
    have hshort : ((builtin name).symbol settings).isShort = false :=
      Symbol.isShort_eq_false (.inl rfl)
    rw [hshort]
    simp [shortName?]
  | runtime package name =>
    obtain ⟨_, hname, hempty, hkotlin⟩ :=
      Runtime.of_mem_types (List.contains_iff_mem.mp hnamed)
    have hshort : ((runtime package name).symbol settings).isShort = true := by
      rw [Symbol.isShort, Symbol.isBuiltin, symbol, hempty, hkotlin]
      rfl
    have htype : ((runtime package name).symbol settings).typeName = ⟨package, name⟩ := by
      rw [Symbol.typeName, Symbol.rawName, symbol, hname]
    rw [hshort, htype, shortName?, Option.some.injEq, and_iff_right rfl]
  | generated name =>
    have hempty : settings.modelPackage.isEmpty = false := by
      rw [String.isEmpty_eq_false_iff]
      exact settings.modelPackage_ne (by decide +kernel)
    rw [shortName?, Symbol.isShort, Symbol.isBuiltin, symbol, hempty, Symbol.typeName,
      Symbol.rawName]
    cases "kotlin".toList.isPrefixOf settings.modelPackage.toList <;> simp
  | list => cases hnamed
  | map => cases hnamed

/-- The type of a shape is never null by itself. -/
theorem nullable_symbol {settings : Settings} (type : KotlinType) : (type.symbol settings).nullable = false := by
  cases type with
  | list element sparse => exact Symbol.nullable_dependingOnAll _ _
  | map key value sparse => exact Symbol.nullable_dependingOnAll _ _
  | _ => rfl

def isCollection : KotlinType → Bool
  | list _ _ => true
  | map _ _ _ => true
  | _ => false

/-- Lists and maps belong to Kotlin itself, so they are always written with their package. -/
theorem isShort_of_isCollection {settings : Settings} {type : KotlinType}
    (hcollection : type.isCollection = true) : (type.symbol settings).isShort = false := by
  refine Symbol.isShort_eq_false (.inr ?_)
  cases type with
  | list element sparse => exact Symbol.package_dependingOnAll _ _
  | map key value sparse => exact Symbol.package_dependingOnAll _ _
  | _ => cases hcollection

/-- A shape has a named type, or it is a list or a map. -/
theorem ofShape_cases {model : Model} {shape : Shape} {type : KotlinType}
    (h : ofShape model shape = .ok type) :
    scalar? shape = some type ∨ scalar? shape = none ∧ type.isCollection = true := by
  rw [ofShape, within] at h
  split at h
  · rename_i htype
    obtain ⟨member, _, h⟩ := bind_eq_ok_iff.mp h
    obtain ⟨element, _, h⟩ := bind_eq_ok_iff.mp h
    cases h
    refine .inr ⟨?_, rfl⟩
    rw [scalar?, htype]
  · rename_i htype
    obtain ⟨first, _, h⟩ := bind_eq_ok_iff.mp h
    obtain ⟨key, _, h⟩ := bind_eq_ok_iff.mp h
    obtain ⟨second, _, h⟩ := bind_eq_ok_iff.mp h
    obtain ⟨value, _, h⟩ := bind_eq_ok_iff.mp h
    cases h
    refine .inr ⟨?_, rfl⟩
    rw [scalar?, htype]
  · cases hscalar : scalar? shape with
    | none =>
      rw [hscalar] at h
      cases h
    | some found =>
      rw [hscalar] at h
      cases h
      exact .inl rfl

/-- A shape with a named type has it in every model. -/
theorem ofShape_of_scalar? {model : Model} {shape : Shape} {type : KotlinType}
    (h : scalar? shape = some type) : ofShape model shape = .ok type := by
  rw [ofShape, within]
  split
  · rename_i htype
    rw [scalar?, htype] at h
    cases h
  · rename_i htype
    rw [scalar?, htype] at h
    cases h
  · rw [h]
    rfl

theorem shortName?_ofShape {settings : Settings} {model : Model} {shape : Shape}
    {type : KotlinType} {short : TypeName} (h : ofShape model shape = .ok type) :
    (scalar? shape).bind (shortName? settings) = some short ↔
      (type.symbol settings).isShort = true ∧ (type.symbol settings).typeName = short := by
  rcases ofShape_cases h with hscalar | ⟨hscalar, hcollection⟩
  · rw [hscalar, Option.bind_some]
    exact shortName?_eq_some_iff (isNamed_of_scalar? hscalar)
  · rw [hscalar, Option.bind_none, isShort_of_isCollection hcollection]
    simp

theorem package_of_shortName? {settings : Settings} {type : KotlinType} {short : TypeName}
    (hnamed : type.isNamed = true) (h : type.shortName? settings = some short) :
    short ∈ Runtime.types ∨ short.package = settings.modelPackage := by
  cases type with
  | runtime package name =>
    cases h
    exact .inl (List.contains_iff_mem.mp hnamed)
  | generated name =>
    rw [shortName?] at h
    split at h <;> cases h
    exact .inr rfl
  | _ => cases h

end KotlinType

/-! ## Members and declarations -/

/-- The symbol of a member is that of the type of its target, marked where there may be no value. -/
theorem SymbolProvider.memberSymbol_eq_ok_iff {settings : Settings} {model : Model} {member : Member}
    {symbol : Symbol} :
    (kotlin settings).memberSymbol model member = .ok symbol ↔
      ∃ target type, model.get? member.target = some target ∧ KotlinType.ofShape model target = .ok type ∧
        symbol = if member.isNonNull target then type.symbol settings
          else (type.symbol settings).asNullable target.type.isPrimitive := by
  constructor
  · intro h
    obtain ⟨target, htarget, h⟩ := bind_eq_ok_iff.mp h
    obtain ⟨found, hfound, h⟩ := bind_eq_ok_iff.mp h
    obtain ⟨type, htype, rfl⟩ := map_eq_ok_iff.mp hfound
    exact ⟨target, type, Model.find_eq_ok_iff.mp htarget, htype, (Except.ok.inj h).symm⟩
  · rintro ⟨target, type, htarget, htype, rfl⟩
    have hsymbol : kotlinShape settings model target = .ok (type.symbol settings) :=
      map_eq_ok_iff.mpr ⟨type, htype, rfl⟩
    exact bind_eq_ok_iff.mpr ⟨target, Model.find_eq_ok_iff.mpr htarget,
      bind_eq_ok_iff.mpr ⟨_, hsymbol, rfl⟩⟩

/-- The type of the values of a member, where it is written without its package. -/
def Member.shortName? (settings : Settings) (model : Model) (member : Member) : Option TypeName :=
  ((model.get? member.target).bind KotlinType.scalar?).bind (KotlinType.shortName? settings)

theorem Member.shortName?_eq_some_iff {settings : Settings} {model : Model} {member : Member}
    {symbol : Symbol} {short : TypeName}
    (h : (SymbolProvider.kotlin settings).memberSymbol model member = .ok symbol) :
    member.shortName? settings model = some short ↔
      symbol.isShort = true ∧ symbol.typeName = short := by
  obtain ⟨target, type, htarget, htype, rfl⟩ := SymbolProvider.memberSymbol_eq_ok_iff.mp h
  rw [Member.shortName?, htarget, Option.bind_some, KotlinType.shortName?_ofShape htype]
  -- a null value has a type of the same name
  split
  · rfl
  · rw [Symbol.isShort_asNullable, Symbol.typeName_asNullable]

/-- A member whose target has a named type has a symbol. -/
theorem Member.exists_symbol {settings : Settings} {model : Model} {member : Member}
    {target : Shape} {type : KotlinType} (htarget : model.get? member.target = some target)
    (hscalar : KotlinType.scalar? target = some type) :
    ∃ symbol, (SymbolProvider.kotlin settings).memberSymbol model member = .ok symbol := by
  have htype : KotlinType.ofShape model target = .ok type := KotlinType.ofShape_of_scalar? hscalar
  exact ⟨_, SymbolProvider.memberSymbol_eq_ok_iff.mpr ⟨target, type, htarget, htype, rfl⟩⟩

theorem Member.package_of_shortName? {settings : Settings} {model : Model} {member : Member}
    {short : TypeName} (h : member.shortName? settings model = some short) :
    short ∈ Runtime.types ∨ short.package = settings.modelPackage := by
  obtain ⟨type, htype, hshort⟩ := Option.bind_eq_some_iff.mp h
  obtain ⟨target, _, hscalar⟩ := Option.bind_eq_some_iff.mp htype
  exact KotlinType.package_of_shortName? (KotlinType.isNamed_of_scalar? hscalar) hshort

namespace Shape

/-- Whether a structure stands for the absence of a value. -/
def isUnit (shape : Shape) : Bool := shape.type = .struct && shape.traits.contains Trait.unitType

/-- The class that a structure or union declares. -/
def declaredName (settings : Settings) (shape : Shape) : TypeName :=
  ⟨settings.modelPackage, Text.before '<' (Naming.pascalCase shape.id.name)⟩

theorem scalar?_of_declares {shape : Shape} (htype : shape.type = .struct ∨ shape.type = .union) :
    KotlinType.scalar? shape = some (if shape.isUnit = true then .builtin "Unit"
      else .generated (Naming.pascalCase shape.id.name)) := by
  rcases htype with htype | htype <;> rw [KotlinType.scalar?, isUnit, htype]
  · by_cases hunit : shape.traits.contains Trait.unitType = true <;> simp [hunit]
  · rfl

/-- A declaration has the symbol of its class. -/
theorem shapeSymbol_eq {settings : Settings} {model : Model} {shape : Shape} {symbol : Symbol}
    (htype : shape.type = .struct ∨ shape.type = .union)
    (h : (SymbolProvider.kotlin settings).shapeSymbol model shape = .ok symbol) :
    symbol = if shape.isUnit = true then (KotlinType.builtin "Unit").symbol settings
      else (KotlinType.generated (Naming.pascalCase shape.id.name)).symbol settings := by
  obtain ⟨type, hof, rfl⟩ := map_eq_ok_iff.mp h
  rw [KotlinType.ofShape_of_scalar? (scalar?_of_declares htype)] at hof
  cases hof
  split
  · rfl
  · rfl

theorem typeName_shapeSymbol {settings : Settings} {model : Model} {shape : Shape} {symbol : Symbol}
    (htype : shape.type = .struct ∨ shape.type = .union)
    (h : (SymbolProvider.kotlin settings).shapeSymbol model shape = .ok symbol) :
    symbol.typeName =
      if shape.isUnit = true then ⟨"kotlin", "Unit"⟩ else shape.declaredName settings := by
  rw [shapeSymbol_eq htype h]
  split
  · have hname : Text.before '<' "Unit" = "Unit" := by decide +kernel
    exact congrArg (TypeName.mk "kotlin") hname
  · rfl

end Shape

end SmithyKotlin
