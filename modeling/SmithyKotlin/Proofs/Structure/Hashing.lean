import Mathlib.Algebra.Group.Nat.Even
import Mathlib.Data.List.Forall2
import Mathlib.Data.Nat.Bits
import SmithyKotlin.Proofs.Structure.Evaluation
import SmithyKotlin.Proofs.Structure.Planning
import SmithyKotlin.Proofs.Symbol.TypeName

/-!
# Equal objects and their hashes

* `StructureDeclaration.IsInstance`: an object with values of the types of the properties.
* `Kotlin.zeroFlips`: when two such objects are equal, their hashes differ by the signs of zeros only; each property
  that has zeros of different signs turns the highest bit of the hash (`hashOf_of_allSame`,
  `Kotlin.bodd_zeroFlips_cons`).
* `StructureDeclaration.HashesAlike`: so equal objects have the same hash exactly when the number of these
  properties is even, and always where no member is a floating-point number.
* `StructureDeclaration.plan_hashesAlike` says so of every plan whose names hide nothing.

How objects of other classes compare is left to a heap, of which only the contract of the two methods is assumed
(`Heap.Lawful`).
-/

namespace SmithyKotlin

open Kotlin

/-! ## Types of values -/

/-- The types whose values are no objects. -/
def Kotlin.primitives : List TypeName :=
  ["Boolean", "Byte", "Short", "Int", "Long", "Float", "Double"].map (TypeName.mk "kotlin")

/-- The value can be that of a property with the symbol as its type. -/
def Kotlin.Value.HasType {Object : Type} (symbol : Symbol) : Value Object → Prop
  | .null => symbol.nullable = true
  | .truth _ => symbol.typeName = ⟨"kotlin", "Boolean"⟩
  | .byte _ => symbol.typeName = ⟨"kotlin", "Byte"⟩
  | .short _ => symbol.typeName = ⟨"kotlin", "Short"⟩
  | .int _ => symbol.typeName = ⟨"kotlin", "Int"⟩
  | .long _ => symbol.typeName = ⟨"kotlin", "Long"⟩
  | .float _ => symbol.typeName = ⟨"kotlin", "Float"⟩
  | .double _ => symbol.typeName = ⟨"kotlin", "Double"⟩
  | .object _ => symbol.typeName ∉ primitives

instance {Object : Type} (symbol : Symbol) (value : Value Object) : Decidable (value.HasType symbol) :=
  match value with
  | .null | .truth _ | .byte _ | .short _ | .int _ | .long _ | .float _ | .double _ =>
    inferInstanceAs (Decidable (_ = _))
  | .object _ => inferInstanceAs (Decidable (_ ∉ _))

variable {model : Model} {settings : Settings} {member : Member} {symbol : Symbol} {target : Shape}
  {property : Property}

/-- A member has the type of its target, which may be null or not. -/
theorem Member.typeName_memberSymbol
    (h : (SymbolProvider.kotlin settings).memberSymbol model member = .ok symbol)
    (htarget : model.get? member.target = some target) :
    ∃ type, KotlinType.ofShape model target = .ok type ∧
      symbol.typeName = (type.symbol settings).typeName := by
  obtain ⟨found, type, hfound, htype, hsymbol⟩ := SymbolProvider.memberSymbol_eq_ok_iff.mp h
  obtain rfl : found = target := Option.some.inj (hfound.symm.trans htarget)
  refine ⟨type, htype, ?_⟩
  rw [hsymbol]
  split <;> rfl

/-- A type without arguments is that of the target. -/
theorem Member.typeName_of_scalar?
    (h : (SymbolProvider.kotlin settings).memberSymbol model member = .ok symbol)
    (htarget : model.get? member.target = some target) {type : KotlinType} {name : TypeName}
    (hscalar : KotlinType.scalar? target = some type) (hname : (type.symbol settings).typeName = name) :
    symbol.typeName = name := by
  obtain ⟨found, hfound, hsame⟩ := Member.typeName_memberSymbol h htarget
  rw [KotlinType.ofShape_of_scalar? hscalar, Except.ok.injEq] at hfound
  exact hsame.trans (hfound ▸ hname)

theorem KotlinType.typeName_builtin {name : String} (hplain : Text.before '<' name = name) :
    ((builtin name).symbol settings).typeName = ⟨"kotlin", name⟩ := by
  show (⟨"kotlin", Text.before '<' name⟩ : TypeName) = _
  rw [hplain]

theorem KotlinType.typeName_runtime {package name : String} (hplain : Text.before '<' name = name) :
    ((runtime package name).symbol settings).typeName = ⟨package, name⟩ := by
  show (⟨package, Text.before '<' name⟩ : TypeName) = _
  rw [hplain]

variable {Object : Type} {value : Value Object}

/-- Values of a type of small numbers are of that type only. -/
theorem Basis.admits_number (basis : Basis) {name : String}
    (hname : symbol.typeName = ⟨"kotlin", name⟩)
    (hbasis : (basis, name) ∈ [(.numeric, "Int"), (.widened, "Byte"), (.widened, "Short")])
    (hvalue : value.HasType symbol) : basis.Admits value := by
  simp only [List.mem_cons, Prod.mk.injEq, List.not_mem_nil, or_false] at hbasis
  rcases hbasis with ⟨rfl, rfl⟩ | ⟨rfl, rfl⟩ | ⟨rfl, rfl⟩
  all_goals
    cases value with
    | object reference => exact absurd (hname ▸ (by decide)) hvalue
    | _ => first | trivial | exact absurd (hname.symm.trans hvalue) (by decide)

theorem Basis.admits_object {basis : Basis} (hbasis : basis = .content ∨ basis = .identity)
    (hname : symbol.typeName ∉ primitives) (hvalue : value.HasType symbol) : basis.Admits value := by
  rcases hbasis with rfl | rfl
  all_goals
    cases value with
    | null => trivial
    | object reference => trivial
    | _ => exact absurd (hvalue ▸ (by decide)) hname

/-- The basis for a target is made for the values that its members have. -/
theorem Basis.admits_of_hasType
    (h : (SymbolProvider.kotlin settings).memberSymbol model member = .ok symbol)
    (htarget : model.get? member.target = some target) (hvalue : value.HasType symbol) :
    (Basis.ofTarget target.type target.isStreamingBlob).Admits value := by
  have hbuiltin (name : String) (hscalar : KotlinType.scalar? target = some (.builtin name))
      (hplain : Text.before '<' name = name) : symbol.typeName = ⟨"kotlin", name⟩ :=
    Member.typeName_of_scalar? h htarget hscalar (KotlinType.typeName_builtin hplain)
  cases htype : target.type with
  | integer =>
    have hname := hbuiltin "Int" (by rw [KotlinType.scalar?, htype]) (by decide)
    exact Basis.admits_number .numeric hname (by decide) hvalue
  | intEnum =>
    have hname := hbuiltin "Int" (by rw [KotlinType.scalar?, htype]) (by decide)
    exact Basis.admits_number .numeric hname (by decide) hvalue
  | byte =>
    have hname := hbuiltin "Byte" (by rw [KotlinType.scalar?, htype]) (by decide)
    exact Basis.admits_number .widened hname (by decide) hvalue
  | short =>
    have hname := hbuiltin "Short" (by rw [KotlinType.scalar?, htype]) (by decide)
    exact Basis.admits_number .widened hname (by decide) hvalue
  | blob =>
    have hscalar : KotlinType.scalar? target =
        if target.isStreaming = true then some (.runtime Runtime.contentPackage "ByteStream")
        else some (.builtin "ByteArray") := by
      rw [KotlinType.scalar?, htype]
    refine Basis.admits_object (by rw [Basis.ofTarget]; split <;> simp) ?_ hvalue
    split at hscalar
    · have hname := Member.typeName_of_scalar? h htarget hscalar (KotlinType.typeName_runtime (by decide))
      exact hname ▸ (by decide)
    · have hname := hbuiltin "ByteArray" hscalar (by decide)
      exact hname ▸ (by decide)
  | _ => cases value <;> trivial

/-! ## Objects of the class -/

variable {heap : Heap} {object other : heap.Object} {values others : List (Value heap.Object)}

/-- The property of the object has the value, which is of its type. -/
def Property.Gives (object : heap.Object) (property : Property) (value : Value heap.Object) : Prop :=
  heap.select (.object object) property.name = some value ∧ value.HasType property.symbol

instance (object : heap.Object) : DecidableRel (Property.Gives object) :=
  fun _ _ => inferInstanceAs (Decidable (_ ∧ _))

/-- What is read from a planned property is a value for its strategy. -/
theorem Property.holds_of_ofMember {value : Value heap.Object} {error : Bool}
    (hplanned : Property.ofMember model (.kotlin settings) error member = .ok property)
    (hgives : property.Gives object value) : property.Holds object value := by
  obtain ⟨hread, hvalue⟩ := hgives
  obtain ⟨target, htarget, hstrategy⟩ := Property.strategy_ofMember hplanned
  refine ⟨hread, ?_, fun hnull => ?_⟩
  · rw [hstrategy]
    exact Basis.admits_of_hasType (Property.symbol_ofMember hplanned) htarget hvalue
  · rw [hstrategy, Strategy.select_nullable]
    rw [hnull] at hvalue
    exact hvalue

namespace StructureDeclaration

variable {declaration : StructureDeclaration} {shape : Shape} {id : ShapeId}

/-- The object is of the class, and its properties have the values, which are of their types. -/
structure IsInstance (declaration : StructureDeclaration) (object : heap.Object)
    (values : List (Value heap.Object)) : Prop where
  isA : heap.isA object declaration.symbol.name = true
  values : List.Forall₂ (Property.Gives object) declaration.properties values

theorem describes_of_isInstance (hget : model.get? id = some shape) (htype : shape.type = .struct)
    (hplan : plan model (.kotlin settings) settings id = .ok declaration)
    (hinstance : declaration.IsInstance object values) : declaration.Describes object values := by
  refine ⟨hinstance.isA, ?_⟩
  have hplanned : ∀ property ∈ declaration.properties, ∃ member,
      Property.ofMember model (.kotlin settings) shape.isError member = .ok property :=
    exists_of_forall₂ (properties_of_plan hget htype hplan).flip
  refine ((List.forall₂_and_left _ _).mpr ⟨hplanned, hinstance.values⟩).imp ?_
  rintro property value ⟨⟨member, hmember⟩, hgives⟩
  exact Property.holds_of_ofMember hmember hgives

instance (declaration : StructureDeclaration) (object : heap.Object) (values : List (Value heap.Object)) :
    Decidable (declaration.IsInstance object values) :=
  decidable_of_iff (heap.isA object declaration.symbol.name = true ∧
      List.Forall₂ (Property.Gives object) declaration.properties values)
    ⟨fun ⟨isA, values⟩ => ⟨isA, values⟩, fun h => ⟨h.isA, h.values⟩⟩

/-- An object has one value for each property. -/
theorem IsInstance.unique (h : declaration.IsInstance object values)
    (h' : declaration.IsInstance object others) : values = others :=
  List.right_unique_forall₂' (fun _ _ _ hvalue hother => Option.some.inj (hvalue.1.symm.trans hother.1))
    h.values h'.values

end StructureDeclaration

/-! ## Zeros -/

/-- The number of places where two lists have zeros of different signs. -/
def Kotlin.zeroFlips {Object : Type} : List (Value Object) → List (Value Object) → Nat
  | value :: values, other :: others => zeroFlips values others + (value.oppositeZeros other).toNat
  | _, _ => 0

theorem Kotlin.zeroFlips_self (values : List (Value heap.Object)) : zeroFlips values values = 0 := by
  induction values with
  | nil => rfl
  | cons value rest ih => rw [zeroFlips, ih, Value.oppositeZeros_self, Bool.toNat_false]

/-- Whether the number of flips is odd, one after the other. -/
theorem Kotlin.bodd_zeroFlips_cons (value other : Value heap.Object) (values others : List (Value heap.Object)) :
    (zeroFlips (value :: values) (other :: others)).bodd =
      (value.oppositeZeros other ^^ (zeroFlips values others).bodd) := by
  rw [zeroFlips, Nat.bodd_add, Bool.xor_comm]
  cases value.oppositeZeros other <;> rfl

namespace Property

/-- Where all values are the same, the hashes differ by the flips of zeros. -/
theorem foldl_mixed_of_allSame (hlawful : heap.Lawful) {properties : List Property}
    (hholds : List.Forall₂ (fun property value => property.Holds object value) properties values)
    (hothers : List.Forall₂ (fun property value => property.Holds other value) properties others)
    (hsame : allSame heap properties values others = true) (result : BitVec 32) (flipped : Bool) :
    (properties.zip others).foldl (mixed heap) (result + signBit flipped) =
      (properties.zip values).foldl (mixed heap) result +
        signBit (flipped ^^ (zeroFlips values others).bodd) := by
  induction hholds generalizing others result flipped with
  | nil =>
    cases hothers
    rw [zeroFlips_self, Nat.bodd_zero, Bool.xor_false]
    rfl
  | @cons property value properties values _ _ ih =>
    cases hothers with
    | @cons _ other _ others _ hothers =>
      rw [allSame, Bool.and_eq_true] at hsame
      -- the flip of this property adds to those before it
      have hstep : mixed heap (result + signBit flipped) (property, other) =
          mixed heap result (property, value) + signBit (flipped ^^ value.oppositeZeros other) := by
        rw [mixed, mixed, Heap.hashBy_of_sameBy hlawful hsame.1, mul_add, mul_signBit, ← signBit_add]
        exact add_add_add_comm _ _ _ _
      rw [List.zip_cons_cons, List.zip_cons_cons, List.foldl_cons, List.foldl_cons, hstep,
        ih hothers hsame.2, bodd_zeroFlips_cons, Bool.xor_assoc]

end Property

namespace StructureDeclaration

variable {declaration : StructureDeclaration}

/-- The hashes of equal objects differ by the flips of zeros. -/
theorem hashOf_of_allSame (hlawful : heap.Lawful) (hdescribes : declaration.Describes object values)
    (hother : declaration.Describes other others)
    (hclass : heap.equals (heap.classOf object) (heap.classOf other) = true)
    (hsame : Property.allSame heap declaration.properties values others = true) :
    declaration.hashOf other others =
      declaration.hashOf object values + signBit (zeroFlips values others).bodd := by
  have hholds := hdescribes.holds
  have hothers := hother.holds
  rw [hashOf, hashOf]
  generalize declaration.properties = properties at *
  cases hholds with
  | nil =>
    cases hothers
    rw [zeroFlips_self]
    exact (hlawful.hashCode _ _ hclass).symm.trans (add_zero _).symm
  | @cons property value properties values _ hholds =>
    cases hothers with
    | @cons _ other _ others _ hothers =>
      rw [Property.allSame, Bool.and_eq_true] at hsame
      rw [List.zip_cons_cons, List.zip_cons_cons, bodd_zeroFlips_cons]
      dsimp only
      rw [Heap.hashBy_of_sameBy hlawful hsame.1]
      exact Property.foldl_mixed_of_allSame hlawful hholds hothers hsame.2 _ _

/-- No property has a floating-point type, with null or without. -/
def WithoutFloats (declaration : StructureDeclaration) : Prop :=
  ∀ property ∈ declaration.properties,
    property.symbol.typeName ∉ [⟨"kotlin", "Float"⟩, ⟨"kotlin", "Double"⟩]

/-- Values of other types are no zeros that could have a sign. -/
theorem oppositeZeros_of_hasType {value : Value heap.Object} {symbol : Symbol}
    (hvalue : value.HasType symbol)
    (hfloats : symbol.typeName ∉ [⟨"kotlin", "Float"⟩, ⟨"kotlin", "Double"⟩])
    (other : Value heap.Object) : value.oppositeZeros other = false := by
  cases value with
  | float bits => exact absurd (List.mem_pair.mpr (.inl hvalue)) hfloats
  | double bits => exact absurd (List.mem_pair.mpr (.inr hvalue)) hfloats
  | _ => cases other <;> rfl

theorem zeroFlips_of_withoutFloats (hfloats : declaration.WithoutFloats)
    (hinstance : declaration.IsInstance object values) (others : List (Value heap.Object)) :
    zeroFlips values others = 0 := by
  obtain ⟨_, hvalues⟩ := hinstance
  rw [WithoutFloats] at hfloats
  generalize declaration.properties = properties at *
  induction hvalues generalizing others with
  | nil =>
    cases others <;> rfl
  | @cons property value properties values hfirst _ ih =>
    obtain ⟨hfloat, hfloats⟩ := List.forall_mem_cons.mp hfloats
    cases others with
    | nil => rfl
    | cons other others =>
      rw [zeroFlips, ih others hfloats, oppositeZeros_of_hasType hfirst.2 hfloat, Bool.toNat_false]

/-- What the methods of a class make of two objects: `hashCode` has a result for both and `equals` says whether
they are equal; the hashes of equal objects are the same exactly when an even number of properties have zeros of
different signs, so always where no property has a floating-point type. -/
structure HashesAlike (declaration : StructureDeclaration) (object other : heap.Object)
    (values others : List (Value heap.Object)) : Prop where
  runs : ∃ hash otherHash equal,
    declaration.hashCodeMethod.call heap object [] = some (.int hash) ∧
    declaration.hashCodeMethod.call heap other [] = some (.int otherHash) ∧
    declaration.equalsMethod.call heap object [.object other] = some (.truth equal) ∧
    (equal = true → (hash = otherHash ↔ Even (zeroFlips values others)))
  flips : declaration.WithoutFloats → zeroFlips values others = 0

/-- For every planned structure with properties that nothing hides the methods agree but for the signs of zeros,
whatever the objects are and however they compare. -/
theorem plan_hashesAlike (model : Model) (settings : Settings) (id : ShapeId) (shape : Shape)
    (declaration : StructureDeclaration) (hget : model.get? id = some shape)
    (htype : shape.type = .struct)
    (hplan : plan model (.kotlin settings) settings id = .ok declaration)
    (hnames : ∀ name ∈ declaration.propertyNames, unquoted name ≠ "result" ∧ unquoted name ≠ "other") :
    declaration.hashCodeMethod.emit = declaration.emitHashCode ∧
    declaration.equalsMethod.emit = declaration.emitEquals ∧
    ∀ (heap : Heap) (object other : heap.Object) (values others : List (Value heap.Object)),
      heap.Lawful → declaration.IsInstance object values → declaration.IsInstance other others →
        declaration.HashesAlike object other values others := by
  refine ⟨declaration.emit_hashCodeMethod, declaration.emit_equalsMethod, ?_⟩
  intro heap object other values others hlawful hobject hother
  have hdescribes := describes_of_isInstance hget htype hplan hobject
  have hdescribes' := describes_of_isInstance hget htype hplan hother
  have hresult := fun name hmem => (hnames name hmem).1
  have hparameter := fun name hmem => (hnames name hmem).2
  refine ⟨⟨_, _, _, call_hashCodeMethod hdescribes hresult, call_hashCodeMethod hdescribes' hresult,
    call_equalsMethod hdescribes hdescribes' hparameter, fun hequal => ?_⟩,
    fun hfloats => zeroFlips_of_withoutFloats hfloats hobject others⟩
  rw [Bool.or_eq_true, Bool.and_eq_true, decide_eq_true_eq] at hequal
  rcases hequal with rfl | ⟨hclass, hsame⟩
  · -- one object has one hash, and one value for each property
    obtain rfl := hobject.unique hother
    rw [zeroFlips_self]
    exact iff_of_true rfl Even.zero
  · rw [hashOf_of_allSame hlawful hdescribes hdescribes' hclass hsame, eq_add_signBit_iff, Nat.even_iff,
      Nat.mod_two_of_bodd]
    cases (zeroFlips values others).bodd <;> decide

/-- A point of the plane. -/
def point : Shape :=
  { id := ⟨"com.example#Point"⟩, type := .struct
    members := [.of ⟨"com.example#Point"⟩ "x" ⟨"smithy.api#Double"⟩,
      .of ⟨"com.example#Point"⟩ "y" ⟨"smithy.api#Double"⟩] }

def pointModel : Model :=
  (Model.insert {} { id := ⟨"smithy.api#Double"⟩, type := .double }).insert point

def pointSettings : Settings := { packageName := "com.example", runtimeVersion := "1.0.0" }

/-- The origin with no sign, with the sign of one coordinate and with both signs, and the class of points. -/
abbrev origins : Heap where
  Object := Fin 4
  decidableEq := inferInstance
  classOf _ := 3
  isA object type := object ≠ 3 && type = "Point"
  property object text :=
    if text = "x" then some (.double (if object = 0 then 0 else BitVec.intMin 64))
    else if text = "y" then some (.double (if object = 2 then BitVec.intMin 64 else 0))
    else none
  equals a b := a = b
  hashCode object := object.val
  contentEquals a b := a = b
  contentHashCode object := object.val

theorem lawful_origins : origins.Lawful where
  hashCode := by decide
  contentHashCode := by decide

/-- With the signs of both coordinates turned the hash is the same again. -/
theorem plan_hashesAlike_point :
    ∃ declaration, pointModel.get? point.id = some point ∧ point.type = .struct ∧
      plan pointModel (.kotlin pointSettings) pointSettings point.id = .ok declaration ∧
      (∀ name ∈ declaration.propertyNames, unquoted name ≠ "result" ∧ unquoted name ≠ "other") ∧
      ∃ (object other : origins.Object) (values others : List (Value origins.Object)),
        declaration.IsInstance object values ∧ declaration.IsInstance other others ∧
        zeroFlips values others = 2 ∧ declaration.HashesAlike object other values others := by
  have hget : pointModel.get? point.id = some point := by
    rw [pointModel, Model.get?_insert, if_pos rfl]
  have hseen : (plan pointModel (.kotlin pointSettings) pointSettings point.id).toOption.map
      (fun declaration => decide
        ((∀ name ∈ declaration.propertyNames, unquoted name ≠ "result" ∧ unquoted name ≠ "other") ∧
          declaration.IsInstance (0 : origins.Object) [.double 0, .double 0] ∧
          declaration.IsInstance (2 : origins.Object)
            [.double (BitVec.intMin 64), .double (BitVec.intMin 64)])) = some true := by
    decide +kernel
  obtain ⟨declaration, hplan, hseen⟩ := map_toOption_eq_some_iff.mp hseen
  obtain ⟨hnames, hobject, hother⟩ := of_decide_eq_true hseen
  obtain ⟨_, _, halike⟩ := plan_hashesAlike pointModel pointSettings point.id point declaration hget rfl hplan
    hnames
  exact ⟨declaration, hget, rfl, hplan, hnames, 0, 2, _, _, hobject, hother, by decide,
    halike origins 0 2 _ _ lawful_origins hobject hother⟩

/-- With the sign of one coordinate turned two points are equal and have different hashes. -/
theorem not_hash_of_equal_point :
    ∃ declaration, pointModel.get? point.id = some point ∧ point.type = .struct ∧
      plan pointModel (.kotlin pointSettings) pointSettings point.id = .ok declaration ∧
      declaration.propertyNames = ["x", "y"] ∧
      declaration.hashCodeMethod.emit = declaration.emitHashCode ∧
      declaration.equalsMethod.emit = declaration.emitEquals ∧
      ∃ (object other : origins.Object) (values others : List (Value origins.Object)), origins.Lawful ∧
        declaration.IsInstance object values ∧ declaration.IsInstance other others ∧
        declaration.equalsMethod.call origins object [.object other] = some (.truth true) ∧
        declaration.hashCodeMethod.call origins object [] = some (.int 0) ∧
        declaration.hashCodeMethod.call origins other [] = some (.int (BitVec.intMin 32)) := by
  have hget : pointModel.get? point.id = some point := by
    rw [pointModel, Model.get?_insert, if_pos rfl]
  have hseen : (plan pointModel (.kotlin pointSettings) pointSettings point.id).toOption.map
      (fun declaration => decide (declaration.propertyNames = ["x", "y"] ∧
        declaration.IsInstance (0 : origins.Object) [.double 0, .double 0] ∧
        declaration.IsInstance (1 : origins.Object) [.double (BitVec.intMin 64), .double 0] ∧
        declaration.equalsMethod.call origins 0 [.object 1] = some (.truth true) ∧
        declaration.hashCodeMethod.call origins 0 [] = some (.int 0) ∧
        declaration.hashCodeMethod.call origins 1 [] = some (.int (BitVec.intMin 32)))) =
      some true := by
    decide +kernel
  obtain ⟨declaration, hplan, hseen⟩ := map_toOption_eq_some_iff.mp hseen
  obtain ⟨hnames, hobject, hother, hruns⟩ := of_decide_eq_true hseen
  exact ⟨declaration, hget, rfl, hplan, hnames, declaration.emit_hashCodeMethod,
    declaration.emit_equalsMethod, 0, 1, _, _, lawful_origins, hobject, hother, hruns⟩

end StructureDeclaration

end SmithyKotlin
