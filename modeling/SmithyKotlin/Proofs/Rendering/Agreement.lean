import SmithyKotlin.Proofs.Structure.Hashing
import SmithyKotlin.Proofs.Union.Planning

/-!
# Types, strategies and defaults

The type of a member, how its values are hashed and what stands for an argument that is not passed are settled apart
from each other.  They agree all the same:

* `Basis.ofTarget_eq_ofTypeName`: the strategy can be read off the type.
* `Member.nullable_memberSymbol`, `handlesNull_hashExpression_iff`: a value can be null for the type and for the
  hash, or for neither.
* `HasLiteral.ne_null`: a default that is no null has a literal that is none.
* `plan_agreement`: so it is for every property and variant (`Agreement`, `Property.DefaultAgreement`).

What the expressions evaluate to is a matter of `Proofs/Structure/Evaluation`.
-/

namespace SmithyKotlin

variable {model : Model} {settings : Settings} {member : Member} {target : Shape}

/-! ## Types -/

theorem TraitMap.hasDefault_iff {traits : TraitMap} :
    traits.hasDefault = true ↔ ∃ value, traits.get? Trait.default = some value ∧ value ≠ .null := by
  rw [hasDefault, Option.any_eq_true]
  refine exists_congr fun value => and_congr_right fun _ => ?_
  cases value <;> simp [Json.isNull]

/-- A member has a value when it is required, and when the default that counts for it is one. -/
theorem Member.isNonNull_iff :
    member.isNonNull target = true ↔
      member.isRequired = true ∨ ∃ value, member.effectiveDefault? target = some value ∧ value ≠ .null := by
  have hcontains : member.traits.contains Trait.default = (member.traits.get? Trait.default).isSome := rfl
  rw [isNonNull, Bool.or_assoc, Bool.or_eq_true, effectiveDefault?, Bool.or_eq_true, Bool.and_eq_true,
    TraitMap.hasDefault_iff, TraitMap.hasDefault_iff, hcontains]
  -- a default of the member hides that of the target, also when it is null
  cases member.traits.get? Trait.default with
  | none => simp
  | some value => simp

/-- The symbol of a member allows null unless the member has a value. -/
theorem Member.nullable_memberSymbol {symbol : Symbol}
    (h : (SymbolProvider.kotlin settings).memberSymbol model member = .ok symbol)
    (htarget : model.get? member.target = some target) :
    symbol.nullable = !member.isNonNull target := by
  obtain ⟨found, type, hfound, _, hsymbol⟩ := SymbolProvider.memberSymbol_eq_ok_iff.mp h
  obtain rfl : found = target := Option.some.inj (hfound.symm.trans htarget)
  rw [hsymbol]
  cases member.isNonNull found with
  | false => rfl
  | true => exact type.nullable_symbol

/-! ## Strategies -/

/-- The basis for values of the type. -/
def Basis.ofTypeName (type : TypeName) : Basis :=
  if type = ⟨"kotlin", "Int"⟩ then .numeric
  else if type = ⟨"kotlin", "Byte"⟩ ∨ type = ⟨"kotlin", "Short"⟩ then .widened
  else if type = ⟨Runtime.contentPackage, "ByteStream"⟩ then .identity
  else if type = ⟨"kotlin", "ByteArray"⟩ then .content
  else .structural

/-- All bases but the structural one are for one or two types. -/
theorem Basis.ofTypeName_iff (type : TypeName) :
    (ofTypeName type = .numeric ↔ type = ⟨"kotlin", "Int"⟩) ∧
      (ofTypeName type = .widened ↔ type = ⟨"kotlin", "Byte"⟩ ∨ type = ⟨"kotlin", "Short"⟩) ∧
      (ofTypeName type = .identity ↔ type = ⟨Runtime.contentPackage, "ByteStream"⟩) ∧
      (ofTypeName type = .content ↔ type = ⟨"kotlin", "ByteArray"⟩) := by
  rw [ofTypeName]
  split_ifs with hint hsmall hstream harray
  · subst hint
    decide
  · rcases hsmall with rfl | rfl <;> decide
  · subst hstream
    decide
  · subst harray
    decide
  · simp [hint, hsmall, hstream, harray]

/-- Types of other packages than those of numbers and blobs have their own `equals`. -/
theorem Basis.ofTypeName_of_package {type : TypeName} (hkotlin : type.package ≠ "kotlin")
    (hruntime : type.package ≠ Runtime.contentPackage) : ofTypeName type = .structural := by
  have hother (name : String) : type ≠ ⟨"kotlin", name⟩ := fun h => hkotlin (congrArg TypeName.package h)
  have hstream : type ≠ ⟨Runtime.contentPackage, "ByteStream"⟩ :=
    fun h => hruntime (congrArg TypeName.package h)
  rw [ofTypeName, if_neg (hother _), if_neg (not_or.mpr ⟨hother _, hother _⟩), if_neg hstream, if_neg (hother _)]

theorem Basis.ofTarget_of_scalar?_eq_none (h : KotlinType.scalar? target = none) (streaming : Bool) :
    ofTarget target.type streaming = .structural := by
  rw [KotlinType.scalar?] at h
  cases htype : target.type with
  | integer | intEnum | byte | short =>
    rw [htype] at h
    cases h
  | blob =>
    rw [htype] at h
    cases hstreaming : target.isStreaming <;> simp [hstreaming] at h
  | _ => rfl

theorem Basis.ofTarget_of_scalar? {type : KotlinType} (h : KotlinType.scalar? target = some type) :
    ofTarget target.type target.isStreamingBlob = ofTypeName (type.symbol settings).typeName := by
  have hgenerated (name : String) :
      ofTypeName ((KotlinType.generated name).symbol settings).typeName = .structural :=
    ofTypeName_of_package (settings.modelPackage_ne (by decide)) (settings.modelPackage_ne (by decide))
  rw [KotlinType.scalar?] at h
  cases htype : target.type with
  | blob =>
    rw [htype] at h
    rw [Shape.isStreamingBlob, htype]
    cases hstreaming : target.isStreaming with
    | true =>
      obtain rfl : .runtime Runtime.contentPackage "ByteStream" = type := by simpa [hstreaming] using h
      rw [KotlinType.typeName_runtime (by decide)]
      decide
    | false =>
      obtain rfl : .builtin "ByteArray" = type := by simpa [hstreaming] using h
      rw [KotlinType.typeName_builtin (by decide)]
      decide
  | struct =>
    rw [htype] at h
    simp only at h
    split at h
    · cases h
      rw [KotlinType.typeName_builtin (by decide)]
      rfl
    · cases h
      rw [hgenerated]
      rfl
  | union =>
    rw [htype] at h
    cases h
    rw [hgenerated]
    rfl
  | bigInteger | bigDecimal | timestamp | document =>
    rw [htype] at h
    cases h
    rw [KotlinType.typeName_runtime (by decide)]
    rfl
  | list | map | service | operation | resource | member =>
    rw [htype] at h
    cases h
  | _ =>
    rw [htype] at h
    cases h
    rw [KotlinType.typeName_builtin (by decide)]
    rfl

/-- The basis for a target goes by the type that its values have. -/
theorem Basis.ofTarget_eq_ofTypeName {type : KotlinType} (h : KotlinType.ofShape model target = .ok type) :
    ofTarget target.type target.isStreamingBlob = ofTypeName (type.symbol settings).typeName := by
  rcases KotlinType.ofShape_cases h with hscalar | ⟨hnone, hcollection⟩
  · exact ofTarget_of_scalar? hscalar
  · have hpackage : (type.symbol settings).typeName.package = "kotlin.collections" := by
      cases type with
      | list element sparse => exact Symbol.package_dependingOnAll _ _
      | map key value sparse => exact Symbol.package_dependingOnAll _ _
      | _ => cases hcollection
    rw [ofTarget_of_scalar?_eq_none hnone, ofTypeName_of_package]
    · rw [hpackage]
      decide
    · rw [hpackage]
      decide

namespace Strategy

/-- The text has one of the operators for values that may be null. -/
def HandlesNull (text : String) : Prop := "?.".toList <:+: text.toList ∨ "?:".toList <:+: text.toList

instance (text : String) : Decidable (HandlesNull text) := inferInstanceAs (Decidable (_ ∨ _))

/-- A hash expression has its value in front. -/
theorem hashExpression_eq_append (strategy : Strategy) (value : String) :
    strategy.hashExpression value = value ++ strategy.hashExpression "" := by
  obtain ⟨basis, nullable⟩ := strategy
  cases basis <;> cases nullable <;> simp [hashExpression, String.append_assoc]

/-- What stands behind the value handles null exactly when the value may be null. -/
theorem handlesNull_hashExpression_iff (strategy : Strategy) :
    HandlesNull (strategy.hashExpression "") ↔ strategy.nullable = true := by
  obtain ⟨basis, nullable⟩ := strategy
  cases basis <;> cases nullable <;> decide

end Strategy

/-! ## Literals -/

namespace Number

/-- The characters of numbers. -/
def isPart (c : Char) : Bool := c.isDigit || c = '-' || c = '+' || c = '.' || c = 'e'

theorem isPart_of_mem_toDigits (n : Nat) : ∀ c ∈ Nat.toDigits 10 n, isPart c = true := by
  intro c h
  have hdigit : c.isDigit = true := Nat.isDigit_of_mem_toDigits (by decide) (by decide) h
  rw [isPart, hdigit, Bool.true_or, Bool.true_or, Bool.true_or, Bool.true_or]

end Number

namespace Decimal

open Number List

variable (d : Decimal)

theorem isPart_of_mem_positional : ∀ c ∈ d.positional, isPart c = true := by
  have hdigits := isPart_of_mem_toDigits d.digits
  have hzeros (n : Nat) : ∀ c ∈ replicate n '0', isPart c = true :=
    fun c h => eq_of_mem_replicate h ▸ (by decide)
  rw [positional]
  split
  · exact forall_mem_append.mpr ⟨forall_mem_append.mpr ⟨hdigits, hzeros _⟩, all_eq_true.mp rfl⟩
  · dsimp only
    split
    · refine forall_mem_append.mpr ⟨fun c h => hdigits c (mem_of_mem_take h), ?_⟩
      exact forall_mem_cons.mpr ⟨by decide, fun c h => hdigits c (mem_of_mem_drop h)⟩
    · refine forall_mem_append.mpr ⟨?_, hdigits⟩
      exact forall_mem_cons.mpr ⟨by decide, forall_mem_cons.mpr ⟨by decide, hzeros _⟩⟩

theorem isPart_of_mem_scientific : ∀ c ∈ d.scientific, isPart c = true := by
  have hdigits := isPart_of_mem_toDigits d.digits
  rw [scientific]
  refine forall_mem_append.mpr ⟨forall_mem_append.mpr ⟨fun c h => hdigits c (mem_of_mem_take h), ?_⟩, ?_⟩
  · split
    · exact forall_mem_nil _
    · exact forall_mem_cons.mpr ⟨by decide, fun c h => hdigits c (mem_of_mem_drop h)⟩
  · refine forall_mem_cons.mpr ⟨by decide, forall_mem_cons.mpr ⟨?_, isPart_of_mem_toDigits _⟩⟩
    split <;> decide

theorem isPart_of_mem_toText : ∀ c ∈ d.toText, isPart c = true := by
  rw [toText]
  split
  · exact d.isPart_of_mem_positional
  · exact d.isPart_of_mem_scientific

end Decimal

namespace Number

theorem isPart_of_mem_toText (number : Number) : ∀ c ∈ number.toText.toList, isPart c = true := by
  cases number with
  | integer value =>
    rw [toText, integerText]
    split
    · rw [String.toList_append, Nat.toList_repr]
      exact List.forall_mem_append.mpr ⟨List.all_eq_true.mp rfl, isPart_of_mem_toDigits _⟩
    · rw [Nat.toList_repr]
      exact isPart_of_mem_toDigits _
  | double value =>
    rw [toText, Double.toText, String.toList_ofList]
    refine List.forall_mem_append.mpr ⟨?_, value.shortest.isPart_of_mem_toText⟩
    split <;> exact List.all_eq_true.mp rfl

/-- No number reads like null. -/
theorem toText_append_ne_null (number : Number) {suffix : String} (hsuffix : 'n' ∉ suffix.toList) :
    number.toText ++ suffix ≠ "null" := by
  intro hnull
  have hmem : 'n' ∈ (number.toText ++ suffix).toList := by
    rw [hnull]
    decide
  rw [String.toList_append] at hmem
  rcases List.mem_append.mp hmem with h | h
  · exact absurd (number.isPart_of_mem_toText _ h) (by decide)
  · exact hsuffix h

end Number

theorem Naming.stringLiteral_ne_null (text : String) : stringLiteral text ≠ "null" := by
  intro h
  have hhead : (stringLiteral text).toList.head? = "null".toList.head? := by rw [h]
  rw [stringLiteral, String.toList_ofList] at hhead
  change some '"' = some 'n' at hhead
  exact absurd hhead (by decide)

namespace Json

/-- The expression has the value, as one of some type. -/
inductive HasLiteral : Json → String → Prop
  | truth (value : Bool) : HasLiteral (.bool value) (if value then "true" else "false")
  | number (value : Number) {suffix : String} (hsuffix : suffix ∈ ["", "L", "f", ".0"]) :
      HasLiteral (.number value) (value.toText ++ suffix)
  | string (text : String) : HasLiteral (.string text) (Naming.stringLiteral text)
  | emptyList : HasLiteral (.array []) "emptyList()"
  | emptyMap : HasLiteral (.object []) "emptyMap()"

theorem hasLiteral_toText (value : Number) : HasLiteral (.number value) value.toText := by
  have h : HasLiteral (.number value) (value.toText ++ "") := .number value (by decide)
  rwa [String.append_empty] at h

theorem hasLiteral_doubleLiteral (value : Number) : HasLiteral (.number value) (doubleLiteral value) := by
  rw [doubleLiteral]
  split
  · exact hasLiteral_toText value
  · exact .number value (by decide)

theorem hasLiteral_of_defaultLiteral? {type : ShapeType} {value : Json} {text : String}
    (h : defaultLiteral? type value = some text) : value.HasLiteral text := by
  unfold defaultLiteral? at h
  split at h <;> cases h
  case h_1 => exact .truth _
  case h_2 | h_3 | h_4 | h_5 => exact hasLiteral_toText _
  case h_6 | h_7 => exact .number _ (by decide)
  case h_8 => exact hasLiteral_doubleLiteral _
  case h_9 | h_10 => exact .string _
  case h_11 => exact .emptyList
  case h_12 => exact .emptyMap

variable {value : Json} {text : String}

theorem HasLiteral.ne_null (h : value.HasLiteral text) : value ≠ .null := by
  cases h <;> exact Json.noConfusion

/-- No value has an expression that reads like null. -/
theorem HasLiteral.text_ne_null (h : value.HasLiteral text) : text ≠ "null" := by
  cases h with
  | truth value => cases value <;> decide
  | number value hsuffix =>
    refine value.toText_append_ne_null ?_
    revert hsuffix
    decide +revert
  | string text => exact Naming.stringLiteral_ne_null text
  | emptyList | emptyMap => decide

end Json

/-! ## Planned classes -/

/-- The symbol and the strategy of a member fit together, and null is ruled out where the member has a value. -/
structure Agreement (model : Model) (member : Member) (target : Shape) (symbol : Symbol)
    (strategy : Strategy) : Prop where
  found : model.get? member.target = some target
  nullable : strategy.nullable = symbol.nullable
  numeric : strategy.basis = .numeric ↔ symbol.typeName = ⟨"kotlin", "Int"⟩
  widened : strategy.basis = .widened ↔
    symbol.typeName = ⟨"kotlin", "Byte"⟩ ∨ symbol.typeName = ⟨"kotlin", "Short"⟩
  identity : strategy.basis = .identity ↔ symbol.typeName = ⟨Runtime.contentPackage, "ByteStream"⟩
  content : strategy.basis = .content ↔ symbol.typeName = ⟨"kotlin", "ByteArray"⟩
  /-- The hash expression handles null exactly where the type allows it. -/
  hash : ∃ added, (∀ value, strategy.hashExpression value = value ++ added) ∧
    (Strategy.HandlesNull added ↔ symbol.nullable = true)
  nonNull : symbol.nullable = false ↔
    member.isRequired = true ∨ ∃ value, member.effectiveDefault? target = some value ∧ value ≠ .null

theorem agreement_of_select {symbol : Symbol} (htarget : model.get? member.target = some target)
    (hsymbol : (SymbolProvider.kotlin settings).memberSymbol model member = .ok symbol) :
    Agreement model member target symbol
      (.select target.type symbol.nullable target.isStreamingBlob) := by
  obtain ⟨type, htype, hname⟩ := Member.typeName_memberSymbol hsymbol htarget
  have hbasis : Basis.ofTarget target.type target.isStreamingBlob = .ofTypeName symbol.typeName := by
    rw [hname]
    exact Basis.ofTarget_eq_ofTypeName htype
  obtain ⟨hnumeric, hwidened, hidentity, hcontent⟩ := Basis.ofTypeName_iff symbol.typeName
  rw [← hbasis] at hnumeric hwidened hidentity hcontent
  have hnonNull : symbol.nullable = false ↔ member.isNonNull target = true := by
    rw [Member.nullable_memberSymbol hsymbol htarget, Bool.not_eq_false']
  exact
    { found := htarget
      nullable := rfl
      numeric := hnumeric
      widened := hwidened
      identity := hidentity
      content := hcontent
      hash := ⟨_, Strategy.hashExpression_eq_append _, Strategy.handlesNull_hashExpression_iff _⟩
      nonNull := hnonNull.trans Member.isNonNull_iff }

/-- What stands for an argument that is not passed fits the type of the property. -/
structure Property.DefaultAgreement (member : Member) (target : Shape) (property : Property) : Prop where
  null : property.symbol.nullable = true → property.default = some "null"
  /-- The default that counts for the member is written out, and never as null. -/
  literal : property.symbol.nullable = false → ∀ text, property.default = some text →
    text ≠ "null" ∧ ∃ value, member.effectiveDefault? target = some value ∧ value ≠ .null ∧
      defaultLiteral? target.type value = some text ∧ value.HasLiteral text

theorem Property.agreement_ofMember {error : Bool} {property : Property}
    (h : ofMember model (.kotlin settings) error member = .ok property) :
    ∃ target, Agreement model member target property.symbol property.strategy ∧
      property.DefaultAgreement member target := by
  obtain ⟨target, htarget, h⟩ := bind_eq_ok_iff.mp h
  obtain ⟨symbol, hsymbol, h⟩ := bind_eq_ok_iff.mp h
  cases h
  refine ⟨target, agreement_of_select (Model.find_eq_ok_iff.mp htarget) hsymbol, ?_, ?_⟩
  · intro hnull
    exact if_pos hnull
  · intro hnonNull text htext
    dsimp only at hnonNull htext
    rw [if_neg (Bool.eq_false_iff.mp hnonNull)] at htext
    obtain ⟨value, hvalue, hliteral⟩ := Option.bind_eq_some_iff.mp htext
    have hread := Json.hasLiteral_of_defaultLiteral? hliteral
    exact ⟨hread.text_ne_null, value, hvalue, hread.ne_null, hliteral, hread⟩

theorem Variant.agreement_ofMember {variant : Variant}
    (h : ofMember model (.kotlin settings) member = .ok variant) :
    ∃ target, Agreement model member target variant.symbol variant.strategy := by
  obtain ⟨target, htarget, h⟩ := bind_eq_ok_iff.mp h
  obtain ⟨symbol, hsymbol, h⟩ := bind_eq_ok_iff.mp h
  cases h
  exact ⟨target, agreement_of_select (Model.find_eq_ok_iff.mp htarget) hsymbol⟩

/-- For every property of a structure and every variant of a union the symbol, the strategy and, in a structure,
the default fit together. -/
theorem plan_agreement (model : Model) (settings : Settings) (id : ShapeId) (shape : Shape)
    (hget : model.get? id = some shape) :
    (∀ declaration, StructureDeclaration.plan model (.kotlin settings) settings id = .ok declaration →
      List.Forall₂ (fun member property => ∃ target,
          Agreement model member target property.symbol property.strategy ∧
            property.DefaultAgreement member target)
        shape.members declaration.properties) ∧
    ∀ declaration, UnionDeclaration.plan model (.kotlin settings) settings id = .ok declaration →
      List.Forall₂ (fun member variant => ∃ target,
          Agreement model member target variant.symbol variant.strategy)
        (UnionDeclaration.sortedMembers model shape) declaration.variants := by
  constructor
  · intro declaration hplan
    have htype := StructureDeclaration.type_of_plan hget hplan
    exact (StructureDeclaration.properties_of_plan hget htype hplan).imp fun _ _ =>
      Property.agreement_ofMember
  · intro declaration hplan
    exact (UnionDeclaration.variants_of_plan hget hplan).imp fun _ _ => Variant.agreement_ofMember

/-! ## Members with and without defaults -/

namespace Agreement

def withDefault (value : Json) : TraitMap := SortedMap.empty.insert Trait.default value

def required : TraitMap := SortedMap.empty.insert Trait.required Json.emptyObject

/-- The level has the default of its target, and the limit gives it up. -/
def membersOf (container : ShapeId) : List Member :=
  [.of container "age" ⟨"smithy.api#Integer"⟩ required,
   .of container "level" ⟨"com.example#Level"⟩,
   .of container "limit" ⟨"com.example#Level"⟩ (withDefault .null),
   .of container "photo" ⟨"smithy.api#Blob"⟩,
   .of container "title" ⟨"smithy.api#String"⟩ (withDefault (.string "null")),
   .of container "video" ⟨"com.example#Video"⟩ required]

def level : Shape :=
  { id := ⟨"com.example#Level"⟩, type := .byte, traits := withDefault (.number (.integer 1)) }

def video : Shape :=
  { id := ⟨"com.example#Video"⟩, type := .blob
    traits := SortedMap.empty.insert Trait.streaming Json.emptyObject }

def profile : Shape :=
  { id := ⟨"com.example#Profile"⟩, type := .struct, members := membersOf ⟨"com.example#Profile"⟩ }

def change : Shape :=
  { id := ⟨"com.example#Change"⟩, type := .union, members := membersOf ⟨"com.example#Change"⟩ }

def profileModel : Model :=
  [{ id := ⟨"smithy.api#Integer"⟩, type := .integer }, { id := ⟨"smithy.api#Blob"⟩, type := .blob },
    { id := ⟨"smithy.api#String"⟩, type := .string }, level, video, profile, change].foldl Model.insert {}

def profileSettings : Settings := { packageName := "com.example", runtimeVersion := "1.0.0" }

theorem get?_profile : profileModel.get? profile.id = some profile := by
  simp only [profileModel, List.foldl_cons, List.foldl_nil]
  rw [Model.get?_insert, if_neg (by decide), Model.get?_insert, if_pos rfl]

theorem get?_change : profileModel.get? change.id = some change := by
  simp only [profileModel, List.foldl_cons, List.foldl_nil]
  rw [Model.get?_insert, if_pos rfl]

theorem plan_profile : ∃ declaration,
    StructureDeclaration.plan profileModel (.kotlin profileSettings) profileSettings profile.id =
      .ok declaration ∧
    declaration.properties.map (fun property =>
        (property.symbol.display, property.strategy.hashExpression property.name, property.default)) =
      [("kotlin.Int", "age", none), ("kotlin.Byte", "level.toInt()", some "1"),
        ("kotlin.Byte?", "limit?.toInt() ?: 0", some "null"),
        ("kotlin.ByteArray?", "photo?.contentHashCode() ?: 0", some "null"),
        ("kotlin.String", "title.hashCode()", some "\"null\""),
        ("aws.smithy.kotlin.runtime.content.ByteStream", "video.hashCode()", none)] := by
  apply map_toOption_eq_some_iff.mp
  decide +kernel

theorem plan_change : ∃ declaration,
    UnionDeclaration.plan profileModel (.kotlin profileSettings) profileSettings change.id =
      .ok declaration ∧
    declaration.variants.map (fun variant =>
        (variant.symbol.display, variant.strategy.hashExpression "value")) =
      [("kotlin.Int", "value"), ("kotlin.Byte", "value.toInt()"),
        ("kotlin.Byte?", "value?.toInt() ?: 0"),
        ("kotlin.ByteArray?", "value?.contentHashCode() ?: 0"), ("kotlin.String", "value.hashCode()"),
        ("aws.smithy.kotlin.runtime.content.ByteStream", "value.hashCode()")] := by
  rw [UnionDeclaration.plan_eq_of_pairwise get?_change rfl (by decide +kernel) (by decide +kernel)]
  apply map_toOption_eq_some_iff.mp
  decide +kernel

theorem plan_agreement_profile :
    (∃ declaration,
      StructureDeclaration.plan profileModel (.kotlin profileSettings) profileSettings profile.id =
        .ok declaration ∧
      List.Forall₂ (fun member property => ∃ target,
          Agreement profileModel member target property.symbol property.strategy ∧
            property.DefaultAgreement member target)
        profile.members declaration.properties) ∧
    ∃ declaration,
      UnionDeclaration.plan profileModel (.kotlin profileSettings) profileSettings change.id =
        .ok declaration ∧
      List.Forall₂ (fun member variant => ∃ target,
          Agreement profileModel member target variant.symbol variant.strategy)
        (UnionDeclaration.sortedMembers profileModel change) declaration.variants := by
  constructor
  · obtain ⟨declaration, hplan, _⟩ := plan_profile
    exact ⟨declaration, hplan,
      (plan_agreement profileModel profileSettings profile.id profile get?_profile).1 declaration hplan⟩
  · obtain ⟨declaration, hplan, _⟩ := plan_change
    exact ⟨declaration, hplan,
      (plan_agreement profileModel profileSettings change.id change get?_change).2 declaration hplan⟩

end Agreement

end SmithyKotlin
