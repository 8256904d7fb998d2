import SmithyKotlin.Proofs.Json.Numbers
import SmithyKotlin.Proofs.Rendering.Agreement
import SmithyKotlin.Proofs.Structure.Literals
import SmithyKotlin.Proofs.Text.Cut

/-!
# Defaults as literals

* `Json.IsValue`: a valid default is a value of the type of its target, a truth value, an integer in the range of
  the type, a double, a text, or an empty list or map.  For a double every number of a document is one
  (`Json.exists_isValue_of_printable`).
* `Json.IsValue.exists_writtenAs`: the text that stands for it is an expression of the type of the property and has
  that value (`Json.WrittenAs`), with two exceptions (`Json.isWritten`): the least integer of 64 bits, whose digits
  are too large for a literal, and a whole number that the document writes as a double and whose text has a point or
  an exponent.
* `Member.default_written` says this of the default that counts for a member.
-/

namespace SmithyKotlin

open Kotlin

/-! ## Types -/

namespace ShapeType

/-- The bits of a type of integers. -/
def bits? : ShapeType → Option Nat
  | .byte => some 8
  | .short => some 16
  | .integer | .intEnum => some 32
  | .long => some 64
  | _ => none

/-- The Kotlin type of a target whose defaults can be literals. -/
def literalType? : ShapeType → Option TypeName
  | .boolean => some ⟨"kotlin", "Boolean"⟩
  | .byte => some ⟨"kotlin", "Byte"⟩
  | .short => some ⟨"kotlin", "Short"⟩
  | .integer | .intEnum => some ⟨"kotlin", "Int"⟩
  | .long => some ⟨"kotlin", "Long"⟩
  | .double => some ⟨"kotlin", "Double"⟩
  | .string | .enum => some ⟨"kotlin", "String"⟩
  | .list => some ⟨"kotlin.collections", "List"⟩
  | .map => some ⟨"kotlin.collections", "Map"⟩
  | _ => none

/-- Integers of all types are written alike, those of 64 bits with a suffix. -/
theorem integer_of_bits? {type : ShapeType} {bits : Nat} (h : type.bits? = some bits) :
    ∃ name, type.literalType? = some name ∧ (name, bits) ∈ integerTypes ∧ (type = .long ↔ bits = 64) ∧
      ∀ number, defaultLiteral? type (.number number) =
        some (number.toText ++ String.ofList (suffix (decide (type = .long)))) := by
  have htext (number : Number) : number.toText = number.toText ++ String.ofList [] :=
    String.append_empty.symm
  cases type with
  | byte | short | integer | intEnum =>
    cases h
    exact ⟨_, rfl, by decide, by decide, fun number => congrArg some (htext number)⟩
  | long =>
    cases h
    exact ⟨_, rfl, by decide, by decide, fun _ => rfl⟩
  | _ => cases h

end ShapeType

namespace Symbol

theorem typeName_dependingOnAll (symbol : Symbol) (dependencies : List Dependency) :
    (symbol.dependingOnAll dependencies).typeName = symbol.typeName := by
  obtain ⟨found, hfound⟩ := symbol.exists_dependingOnAll_eq dependencies
  rw [hfound]
  rfl

/-- The arguments of a type do not belong to its name. -/
theorem typeName_of_arguments {symbol : Symbol} {name : String} (hplain : '<' ∉ name.toList) (arguments : String)
    (h : symbol.name = name ++ String.singleton '<' ++ arguments) : symbol.typeName = ⟨symbol.package, name⟩ := by
  have hraw : symbol.rawName = name := (Text.before_eq_iff hplain).mpr (.inr ⟨arguments, h⟩)
  rw [typeName, hraw]

end Symbol

namespace KotlinType

variable {settings : Settings}

theorem typeName_list (element : KotlinType) (sparse : Bool) :
    ((list element sparse).symbol settings).typeName = ⟨"kotlin.collections", "List"⟩ := by
  rw [symbol, Symbol.typeName_dependingOnAll]
  exact Symbol.typeName_of_arguments (by decide) (argument (element.symbol settings) sparse ++ ">") String.append_assoc

theorem typeName_map (key value : KotlinType) (sparse : Bool) :
    ((map key value sparse).symbol settings).typeName = ⟨"kotlin.collections", "Map"⟩ := by
  rw [symbol, Symbol.typeName_dependingOnAll]
  refine Symbol.typeName_of_arguments (by decide)
    ((key.symbol settings).display ++ ", " ++ argument (value.symbol settings) sparse ++ ">") ?_
  show "Map<" ++ _ ++ _ ++ _ ++ _ = "Map<" ++ _
  simp only [String.append_assoc]

/-- A target whose defaults can be literals has the type for them. -/
theorem typeName_literalType? {model : Model} {shape : Shape} {type : KotlinType} {name : TypeName}
    (hliteral : shape.type.literalType? = some name) (h : ofShape model shape = .ok type) :
    (type.symbol settings).typeName = name := by
  have hscalar {found : String} (hplain : Text.before '<' found = found)
      (hfound : scalar? shape = some (builtin found)) : (type.symbol settings).typeName = ⟨"kotlin", found⟩ := by
    rw [ofShape_of_scalar? hfound, Except.ok.injEq] at h
    rw [← h, typeName_builtin hplain]
  cases htype : shape.type with
  | boolean | byte | short | integer | intEnum | long | double | string | enum =>
    rw [htype] at hliteral
    cases hliteral
    refine hscalar (by decide +kernel) ?_
    rw [scalar?, htype]
  | list =>
    rw [htype] at hliteral
    cases hliteral
    rw [ofShape, within, htype] at h
    obtain ⟨member, _, h⟩ := bind_eq_ok_iff.mp h
    obtain ⟨element, _, h⟩ := bind_eq_ok_iff.mp h
    cases h
    exact typeName_list element _
  | map =>
    rw [htype] at hliteral
    cases hliteral
    rw [ofShape, within, htype] at h
    obtain ⟨first, _, h⟩ := bind_eq_ok_iff.mp h
    obtain ⟨key, _, h⟩ := bind_eq_ok_iff.mp h
    obtain ⟨second, _, h⟩ := bind_eq_ok_iff.mp h
    obtain ⟨value, _, h⟩ := bind_eq_ok_iff.mp h
    cases h
    exact typeName_map key value _
  | _ =>
    rw [htype] at hliteral
    cases hliteral

end KotlinType

/-! ## Values -/

/-- The number itself. -/
def Double.value (d : Double) : ℚ := if d.negative then -d.magnitude else d.magnitude

namespace Json

/-- The default is a value of the type, and it is the constant. -/
inductive IsValue (type : ShapeType) : Json → Constant → Prop
  | truth (htype : type = .boolean) (value : Bool) : IsValue type (.bool value) (.truth value)
  | integer {bits : Nat} {n : Int} (htype : type.bits? = some bits) (hrange : InRange bits n) :
      IsValue type (.number (.integer n)) (.integer n)
  /-- An integer that the document writes with a point or an exponent, or a zero with a sign. -/
  | whole {bits : Nat} {n : Int} {d : Double} (htype : type.bits? = some bits) (hrange : InRange bits n)
      (hvalue : d.value = n) : IsValue type (.number (.double d)) (.integer n)
  | double {d : Double} (htype : type = .double) (hfinite : d.IsFinite) : IsValue type (.number (.double d)) (.double d)
  /-- An integer, which stands for the nearest double. -/
  | nearest {n : Int} {d : Double} (htype : type = .double) (hsign : d.negative = decide (n < 0))
      (hnearest : d.IsNearest n.natAbs) : IsValue type (.number (.integer n)) (.double d)
  | text (htype : type = .string ∨ type = .enum) (value : String) : IsValue type (.string value) (.text value)
  | emptyList (htype : type = .list) : IsValue type (.array []) .emptyList
  | emptyMap (htype : type = .map) : IsValue type (.object []) .emptyMap

/-- Every number that a text can denote is a valid default for a double. -/
theorem exists_isValue_of_printable {number : Number} (h : number.Printable) :
    ∃ d, IsValue .double (.number number) (.double d) := by
  cases h with
  | @integer n hlow hhigh =>
    have hpower : twoTo 64 < 2 ^ 1023 := by
      decide +kernel
    have hhalf : twoTo 63 ≤ twoTo 64 := by
      decide +kernel
    have hsmall : n.natAbs < 2 ^ 1023 := by
      omega
    obtain ⟨d, hsign, hnearest⟩ := Double.exists_isNearest hsmall (decide (n < 0))
    exact ⟨d, .nearest rfl hsign hnearest⟩
  | @double d hfinite => exact ⟨d, .double rfl hfinite⟩

/-- Whether the text for a value is one for it in the type as well: not so for the least integer of 64 bits and for
integers that the document writes as doubles. -/
def isWritten (type : ShapeType) : Json → Bool
  | .number (.integer n) => !(type = .long && n = -9223372036854775808)
  | .number (.double _) => type.bits?.isNone
  | _ => true

/-- The text has the value in the type where it is one for it, and no value at all otherwise. -/
structure WrittenAs (type : ShapeType) (value : Json) (constant : Constant) (name : TypeName) (text : String) :
    Prop where
  literal : defaultLiteral? type value = some text
  typed : type.literalType? = some name
  means : value.isWritten type = true → Means name text constant
  fails : value.isWritten type = false → ∀ other, ¬ Denotes name text other

variable {type : ShapeType} {value : Json} {constant : Constant} {name : TypeName} {text : String}

theorem writtenAs_of_means (hliteral : defaultLiteral? type value = some text) (htyped : type.literalType? = some name)
    (hwritten : value.isWritten type = true) (hmeans : Means name text constant) :
    WrittenAs type value constant name text := by
  refine ⟨hliteral, htyped, fun _ => hmeans, fun h => ?_⟩
  rw [hwritten] at h
  cases h

theorem writtenAs_of_fails (hliteral : defaultLiteral? type value = some text) (htyped : type.literalType? = some name)
    (hwritten : value.isWritten type = false) (hfails : ∀ other, ¬ Denotes name text other) :
    WrittenAs type value constant name text := by
  refine ⟨hliteral, htyped, fun h => ?_, fun _ => hfails⟩
  rw [hwritten] at h
  cases h

/-! ### Integers -/

/-- Of the integers in the range of a type only the least one of 64 bits has too large digits. -/
theorem natAbs_le_of_inRange {bits : Nat} {n : Int} (htype : (name, bits) ∈ integerTypes) (hrange : InRange bits n)
    (hleast : ¬ (bits = 64 ∧ n = -9223372036854775808)) : n.natAbs ≤ greatestWhole := by
  have hbits : bits = 8 ∨ bits = 16 ∨ bits = 32 ∨ bits = 64 := by
    simp only [integerTypes, List.mem_cons, Prod.mk.injEq, List.not_mem_nil, or_false] at htype
    omega
  rw [greatestWhole]
  obtain ⟨hlow, hhigh⟩ := hrange
  rcases hbits with rfl | rfl | rfl | rfl <;> norm_num at hlow hhigh <;> omega

theorem exists_writtenAs_integer {bits : Nat} {n : Int} (htype : type.bits? = some bits) (hrange : InRange bits n) :
    ∃ name text, WrittenAs type (.number (.integer n)) (.integer n) name text := by
  obtain ⟨name, hname, hbits, hlong, htext⟩ := ShapeType.integer_of_bits? htype
  have hread : expression? (integerText n ++ String.ofList (suffix (decide (type = .long)))).toList =
      some (decide (n < 0), .whole n.natAbs (decide (type = .long))) := by
    rw [String.toList_append, String.toList_ofList, read_integerText]
  refine ⟨name, integerText n ++ String.ofList (suffix (decide (type = .long))), ?_⟩
  by_cases hleast : bits = 64 ∧ n = -9223372036854775808
  · -- the digits behind the sign are one too many
    obtain ⟨hbits64, rfl⟩ := hleast
    have hwritten : isWritten type (.number (.integer (-9223372036854775808))) = false := by
      rw [isWritten, decide_eq_true (hlong.mpr hbits64)]
      rfl
    refine writtenAs_of_fails (htext _) hname hwritten (not_denotes_of_not_gives hread fun other hgives => ?_)
    cases hgives with
    | integer _ _ hwhole _ => exact absurd hwhole (by decide)
  · have hwritten : isWritten type (.number (.integer n)) = true := by
      rw [isWritten, Bool.not_eq_true', Bool.and_eq_false_iff, decide_eq_false_iff_not, decide_eq_false_iff_not, hlong]
      omega
    have hgives : (Literal.whole n.natAbs (decide (type = .long))).Gives name (decide (n < 0)) (.integer n) := by
      have hlongBits (h : decide (type = .long) = true) : bits = 64 := hlong.mp (of_decide_eq_true h)
      have hwhole := natAbs_le_of_inRange hbits hrange hleast
      have hsigned := signed_natAbs n
      rw [← hsigned] at hrange
      have hgives := Literal.Gives.integer hbits hlongBits hwhole hrange
      rwa [hsigned] at hgives
    exact writtenAs_of_means (htext _) hname hwritten (means_of_gives hread hgives)

/-- A double is no integer of any type, and what has the suffix of long numbers besides a point is nothing at all. -/
theorem exists_writtenAs_whole {bits : Nat} (htype : type.bits? = some bits) (d : Double) (constant : Constant) :
    ∃ name text, WrittenAs type (.number (.double d)) constant name text := by
  obtain ⟨name, hname, hbits, hlong, htext⟩ := ShapeType.integer_of_bits? htype
  obtain ⟨decimal, _, hread⟩ := read_doubleText d
  have hwritten : isWritten type (.number (.double d)) = false := by
    rw [isWritten, htype]
    rfl
  refine ⟨name, _, writtenAs_of_fails (htext _) hname hwritten ?_⟩
  generalize decide (type = .long) = long
  have hsuffix : expression? (d.toText ++ String.ofList (suffix long)).toList =
      if long then none else some (d.negative, .decimal decimal) := by
    rw [String.toList_append, String.toList_ofList, hread]
  cases long with
  | true => exact not_denotes_of_not_read hsuffix
  | false =>
    refine not_denotes_of_not_gives hsuffix fun other hgives => ?_
    cases hgives with
    | double hdouble _ _ =>
      rw [hdouble] at hbits
      simp [integerTypes] at hbits

/-! ### Doubles -/

theorem writtenAs_double {d : Double} (hfinite : d.IsFinite) :
    WrittenAs .double (.number (.double d)) (.double d) ⟨"kotlin", "Double"⟩ d.toText := by
  obtain ⟨decimal, hvalue, hread⟩ := read_doubleText d
  replace hread := hread false
  rw [suffix, if_neg Bool.false_ne_true, List.append_nil] at hread
  have hnearest : d.IsNearest decimal.value := hvalue ▸ Double.isNearest_shortest hfinite
  exact writtenAs_of_means (congrArg some (doubleLiteral_double d)) rfl rfl
    (means_of_gives hread (.double rfl rfl hnearest))

theorem writtenAs_nearest {n : Int} {d : Double} (hsign : d.negative = decide (n < 0))
    (hnearest : d.IsNearest n.natAbs) :
    WrittenAs .double (.number (.integer n)) (.double d) ⟨"kotlin", "Double"⟩ (integerText n ++ ".0") := by
  obtain ⟨decimal, hvalue, hread⟩ := read_integerText_point n
  have hpoint : expression? (integerText n ++ ".0").toList = some (decide (n < 0), .decimal decimal) := by
    rw [String.toList_append]
    exact hread
  rw [← hvalue] at hnearest
  exact writtenAs_of_means (congrArg some (doubleLiteral_integer n)) rfl rfl
    (means_of_gives hpoint (.double rfl hsign hnearest))

/-! ### Other values -/

theorem writtenAs_truth (value : Bool) :
    WrittenAs .boolean (.bool value) (.truth value) ⟨"kotlin", "Boolean"⟩ (if value then "true" else "false") := by
  have hread : expression? (if value then "true" else "false").toList = some (false, .truth value) := by
    cases value <;> decide
  exact writtenAs_of_means rfl rfl rfl (means_of_gives hread (.truth rfl rfl value))

theorem writtenAs_text (htype : type = .string ∨ type = .enum) (value : String) :
    WrittenAs type (.string value) (.text value) ⟨"kotlin", "String"⟩ (Naming.stringLiteral value) := by
  have hgives : (Literal.text value.toList).Gives ⟨"kotlin", "String"⟩ false (.text value) := by
    have htext := @Literal.Gives.text ⟨"kotlin", "String"⟩ false rfl rfl value.toList
    rwa [String.ofList_toList] at htext
  have hmeans := means_of_gives (read_stringLiteral value) hgives
  rcases htype with rfl | rfl <;> exact writtenAs_of_means rfl rfl rfl hmeans

/-- Every valid default is written as some text. -/
theorem IsValue.exists_writtenAs (h : value.IsValue type constant) :
    ∃ name text, WrittenAs type value constant name text := by
  cases h with
  | truth htype value =>
    subst htype
    exact ⟨_, _, writtenAs_truth value⟩
  | integer htype hrange => exact exists_writtenAs_integer htype hrange
  | whole htype _ _ => exact exists_writtenAs_whole htype _ _
  | double htype hfinite =>
    subst htype
    exact ⟨_, _, writtenAs_double hfinite⟩
  | nearest htype hsign hnearest =>
    subst htype
    exact ⟨_, _, writtenAs_nearest hsign hnearest⟩
  | text htype value => exact ⟨_, _, writtenAs_text htype value⟩
  | emptyList htype =>
    subst htype
    have hread : expression? "emptyList()".toList = some (false, .emptyList) := by
      decide
    exact ⟨_, _, writtenAs_of_means rfl rfl rfl (means_of_gives hread (.emptyList rfl rfl))⟩
  | emptyMap htype =>
    subst htype
    have hread : expression? "emptyMap()".toList = some (false, .emptyMap) := by
      decide
    exact ⟨_, _, writtenAs_of_means rfl rfl rfl (means_of_gives hread (.emptyMap rfl rfl))⟩

end Json

/-! ## Members -/

/-- A valid default of a member is written in its property, whose type is the one for the default. -/
theorem Member.default_written (member : Member) (target : Shape) {value : Json} {constant : Constant}
    (heffective : member.effectiveDefault? target = some value) (hvalue : value.IsValue target.type constant) :
    ∃ name text, (member.effectiveDefault? target).bind (defaultLiteral? target.type) = some text ∧
      Json.WrittenAs target.type value constant name text ∧
      ∀ model settings error property, model.get? member.target = some target →
        Property.ofMember model (.kotlin settings) error member = .ok property →
          property.default = some text ∧ property.symbol.typeName = name ∧ property.symbol.nullable = false := by
  obtain ⟨name, text, hwritten⟩ := hvalue.exists_writtenAs
  have hliteral : (member.effectiveDefault? target).bind (defaultLiteral? target.type) = some text := by
    rw [heffective, Option.bind_some, hwritten.literal]
  refine ⟨name, text, hliteral, hwritten, fun model settings error property htarget h => ?_⟩
  have hsymbol := Property.symbol_ofMember h
  have hnonNull : property.symbol.nullable = false := by
    have hnull : value ≠ .null := by
      rintro rfl
      cases hvalue
    rw [Member.nullable_memberSymbol hsymbol htarget, Bool.not_eq_false']
    exact Member.isNonNull_iff.mpr (.inr ⟨value, heffective, hnull⟩)
  obtain ⟨type, htype, hname⟩ := Member.typeName_memberSymbol hsymbol htarget
  refine ⟨?_, hname.trans (KotlinType.typeName_literalType? hwritten.typed htype), hnonNull⟩
  obtain ⟨found, hfound, h⟩ := bind_eq_ok_iff.mp h
  obtain ⟨symbol, _, h⟩ := bind_eq_ok_iff.mp h
  obtain rfl : found = target := Option.some.inj ((Model.find_eq_ok_iff.mp hfound).symm.trans htarget)
  cases h
  exact (if_neg (Bool.eq_false_iff.mp hnonNull)).trans hliteral

namespace Json.WrittenAs

/-- The prelude type of integers of 64 bits. -/
def long : Shape := { id := ⟨"smithy.api#Long"⟩, type := .long }

def greatest : Json := .number (.integer 9223372036854775807)

def least : Json := .number (.integer (-9223372036854775808))

/-- A member whose default is the greatest integer of 64 bits. -/
def limit : Member := .of ⟨"com.example#Window"⟩ "limit" long.id (Agreement.withDefault greatest)

/-- A member whose default is the least one. -/
def offset : Member := .of ⟨"com.example#Window"⟩ "offset" long.id (Agreement.withDefault least)

def window : Shape := { id := ⟨"com.example#Window"⟩, type := .struct, members := [limit, offset] }

def windowModel : Model := [long, window].foldl Model.insert {}

def windowSettings : Settings := { packageName := "com.example", runtimeVersion := "1.0.0" }

theorem get?_long : windowModel.get? long.id = some long := by
  simp only [windowModel, List.foldl_cons, List.foldl_nil]
  rw [Model.get?_insert, if_neg (by decide), Model.get?_insert, if_pos rfl]

theorem effectiveDefault?_withDefault (container : ShapeId) (name : String) (target : Shape) (value : Json) :
    (Member.of container name target.id (Agreement.withDefault value)).effectiveDefault? target = some value := by
  rw [Member.effectiveDefault?]
  show ((SortedMap.empty.insert Trait.default value).get? Trait.default).or _ = _
  rw [SortedMap.get?_insert_self, Option.some_or]

theorem inRange_limits : InRange 64 9223372036854775807 ∧ InRange 64 (-9223372036854775808) := by
  refine ⟨⟨?_, ?_⟩, ⟨?_, ?_⟩⟩ <;> norm_num

/-- The greatest integer of 64 bits is written. -/
theorem default_written_limit :
    limit.effectiveDefault? long = some greatest ∧
      greatest.IsValue long.type (.integer 9223372036854775807) ∧
      Means ⟨"kotlin", "Long"⟩ "9223372036854775807L" (.integer 9223372036854775807) ∧
      ∃ property, Property.ofMember windowModel (.kotlin windowSettings) false limit = .ok property ∧
        property.default = some "9223372036854775807L" ∧ property.symbol.typeName = ⟨"kotlin", "Long"⟩ ∧
        property.symbol.nullable = false := by
  have heffective : limit.effectiveDefault? long = some greatest := effectiveDefault?_withDefault _ _ long _
  have hvalue : greatest.IsValue long.type (.integer 9223372036854775807) := .integer rfl inRange_limits.1
  obtain ⟨name, text, _, hwritten, hproperty⟩ := limit.default_written long heffective hvalue
  obtain rfl : ⟨"kotlin", "Long"⟩ = name := Option.some.inj hwritten.typed
  obtain rfl : "9223372036854775807L" = text := by
    refine Option.some.inj (Eq.trans ?_ hwritten.literal)
    decide +kernel
  have hplanned : ∃ property, Property.ofMember windowModel (.kotlin windowSettings) false limit = .ok property ∧
      property.name = "limit" := map_toOption_eq_some_iff.mp (by decide +kernel)
  obtain ⟨property, hplanned, _⟩ := hplanned
  exact ⟨heffective, hvalue, hwritten.means rfl, property, hplanned,
    hproperty windowModel windowSettings false property get?_long hplanned⟩

/-- What is written for the least integer of 64 bits is no expression: Kotlin reads the digits without the sign. -/
theorem not_denotes_offset :
    offset.effectiveDefault? long = some least ∧ least.IsValue long.type (.integer (-9223372036854775808)) ∧
      (∃ property, Property.ofMember windowModel (.kotlin windowSettings) false offset = .ok property ∧
        (property.default, property.symbol.typeName) = (some "-9223372036854775808L", ⟨"kotlin", "Long"⟩)) ∧
      ∀ constant, ¬ Denotes ⟨"kotlin", "Long"⟩ "-9223372036854775808L" constant := by
  have hread : expression? "-9223372036854775808L".toList = some (true, .whole 9223372036854775808 true) := by
    decide +kernel
  refine ⟨effectiveDefault?_withDefault _ _ long _, .integer rfl inRange_limits.2,
    map_toOption_eq_some_iff.mp (by decide +kernel), not_denotes_of_not_gives hread fun constant hgives => ?_⟩
  cases hgives with
  | integer _ _ hwhole _ => exact absurd hwhole (by decide)

end Json.WrittenAs

end SmithyKotlin
