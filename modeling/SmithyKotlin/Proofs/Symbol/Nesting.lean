import SmithyKotlin.Proofs.Document.ParsedModel
import SmithyKotlin.Proofs.Naming.ClassName
import SmithyKotlin.Proofs.Settings.Package
import SmithyKotlin.Proofs.Symbol.Mentions
import SmithyKotlin.Proofs.Symbol.TypeText

/-!
# The nesting of types

* `Model.Acyclic`, `Model.Resolves`: no list or map is inside of itself, and everything that a shape holds is in the
  model and can be a value.  Then the shape has a Kotlin type, and otherwise it has none (`exists_within`,
  `resolves_of_within`).
* `Model.Nests`: the nesting of a shape, lists and maps in their places, every name with its package, and a `?` on
  the elements and values of sparse ones only.
* `SymbolProvider.shapeSymbol_nesting`: the text of the type derives one tree, which is that nesting.

Where a list or map is inside of itself the search ends with an error, which is not described here.
-/

namespace SmithyKotlin

/-! ## Shapes inside of others -/

namespace Model

variable {model : Model} {outer inner target : Shape} {name : String} {member : Member}

/-- The second shape stands in a slot of the first one, or is held by what stands there. -/
def Inside (model : Model) (outer inner : Shape) : Prop :=
  ∃ name ∈ outer.slots, ∃ member target, outer.member? name = some member ∧
    model.get? member.target = some target ∧ model.Holds target inner

/-- No list or map is inside of itself. -/
def Acyclic (model : Model) : Prop := ∀ shape, ¬ model.Inside shape shape

theorem Inside.holds (h : model.Inside outer inner) : model.Holds outer inner := holds_iff.mpr (.inr h)

theorem Inside.exists_get? (h : model.Inside outer inner) : ∃ id, model.get? id = some inner := by
  obtain ⟨_, _, _, _, _, htarget, hholds⟩ := h
  exact hholds.exists_get? ⟨_, htarget⟩

/-- In a model with ranks that get smaller in every slot nothing is inside of itself. -/
theorem acyclic_of_rank (hkeyed : model.WellKeyed) (rank : ShapeId → Nat)
    (hranked : ∀ entry ∈ model.shapes.entries, ∀ name ∈ entry.2.slots, ∀ member ∈ entry.2.member? name,
      rank member.target < rank ⟨entry.1⟩) : model.Acyclic := by
  have hrank (id : ShapeId) (shape : Shape) (hget : model.get? id = some shape) :
      ∀ name ∈ shape.slots, ∀ member, shape.member? name = some member → rank member.target < rank id :=
    hranked (id.text, shape) (SortedMap.get?_eq_some_iff.mp hget)
  have hholds {outer inner : Shape} (h : model.Holds outer inner) :
      ∀ id, model.get? id = some outer → rank inner.id ≤ rank outer.id := by
    induction h with
    | self shape => exact fun _ _ => le_rfl
    | slot hslot hmember htarget _ ih =>
      intro id hget
      have hless := hrank _ _ hget _ hslot _ hmember
      have hinner := ih _ htarget
      rw [hkeyed _ _ htarget] at hinner
      rw [hkeyed _ _ hget]
      omega
  intro shape hinside
  obtain ⟨id, hget⟩ := hinside.exists_get?
  obtain ⟨name, hslot, member, target, hmember, htarget, hinner⟩ := hinside
  have hless := hrank _ _ hget _ hslot _ hmember
  have hback := hholds hinner _ htarget
  rw [hkeyed _ _ htarget, hkeyed _ _ hget] at hback
  omega

/-! ## Shapes with a type -/

/-- All targets on the way through lists and maps are in the model, and every shape there can be a value. -/
structure Resolves (model : Model) (shape : Shape) : Prop where
  found : ∀ inner, model.Holds shape inner → ∀ name ∈ inner.slots, ∀ member,
    inner.member? name = some member → ∃ target, model.get? member.target = some target
  typed : ∀ inner, model.Holds shape inner →
    inner.type ∉ [ShapeType.service, .operation, .resource, .member]

theorem resolves_iff {shape : Shape} : model.Resolves shape ↔
    shape.type ∉ [ShapeType.service, .operation, .resource, .member] ∧
      ∀ name ∈ shape.slots, ∀ member, shape.member? name = some member →
        ∃ target, model.get? member.target = some target ∧ model.Resolves target := by
  constructor
  · intro h
    refine ⟨h.typed shape (.self shape), fun name hslot member hmember => ?_⟩
    obtain ⟨target, htarget⟩ := h.found shape (.self shape) name hslot member hmember
    exact ⟨target, htarget, fun inner hinner => h.found inner (.slot hslot hmember htarget hinner),
      fun inner hinner => h.typed inner (.slot hslot hmember htarget hinner)⟩
  · intro h
    obtain ⟨htyped, hslots⟩ := h
    constructor
    · intro inner hholds
      rcases holds_iff.mp hholds with rfl | ⟨name, hslot, member, target, hmember, htarget, hinner⟩
      · intro name hslot member hmember
        obtain ⟨target, htarget, _⟩ := hslots name hslot member hmember
        exact ⟨target, htarget⟩
      · obtain ⟨found, hfound, hresolves⟩ := hslots name hslot member hmember
        obtain rfl : found = target := Option.some.inj (hfound.symm.trans htarget)
        exact hresolves.found inner hinner
    · intro inner hholds
      rcases holds_iff.mp hholds with rfl | ⟨name, hslot, member, target, hmember, htarget, hinner⟩
      · exact htyped
      · obtain ⟨found, hfound, hresolves⟩ := hslots name hslot member hmember
        obtain rfl : found = target := Option.some.inj (hfound.symm.trans htarget)
        exact hresolves.typed inner hinner

/-- Every list and map has the members that its slots name. -/
def Filled (model : Model) : Prop :=
  ∀ id shape, model.get? id = some shape → ∀ name ∈ shape.slots, ∃ member, shape.member? name = some member

end Model

namespace KotlinType

variable {model : Model} {available : SortedMap Shape} {shape : Shape}

/-- Everything inside of the shape can still occur. -/
def Reaches (model : Model) (available : SortedMap Shape) (shape : Shape) : Prop :=
  ∀ inner, model.Inside shape inner → available.get? inner.id.text = some inner

theorem exists_next {name : String} {member : Member} {target : Shape}
    (hmember : shape.member? name = some member) (htarget : available.get? member.target.text = some target) :
    ∃ found, next model available shape name = .ok found ∧ found.target = target ∧
      found.rest = available.erase member.target.text := by
  rw [next]
  split
  · rename_i hnone
    rw [hmember] at hnone
    cases hnone
  · rename_i other hother
    obtain rfl : member = other := Option.some.inj (hmember.symm.trans hother)
    split
    · rename_i found hfound
      exact ⟨_, rfl, Option.some.inj (hfound.symm.trans htarget), rfl⟩
    · rename_i hnone
      rw [htarget] at hnone
      cases hnone

theorem exists_scalar?_iff : (∃ type, scalar? shape = some type) ↔
    shape.type ∉ [ShapeType.service, .operation, .resource, .member] ∧ shape.type ≠ .list ∧
      shape.type ≠ .map := by
  rw [scalar?]
  cases shape.type with
  | blob => cases shape.isStreaming <;> simp
  | struct => cases shape.traits.contains Trait.unitType <;> simp
  | _ => simp

section Acyclic

variable (hkeyed : model.WellKeyed) (hfilled : model.Filled) (hacyclic : model.Acyclic)

include hkeyed hfilled hacyclic

/-- One step into a slot: what is inside of the target is never the target, so it stays. -/
theorem exists_next_of_resolves (hin : ∃ id, model.get? id = some shape) (hresolves : model.Resolves shape)
    (hreaches : Reaches model available shape) {name : String} (hslot : name ∈ shape.slots) :
    ∃ found, next model available shape name = .ok found ∧ (∃ id, model.get? id = some found.target) ∧
      model.Resolves found.target ∧ Reaches model found.rest found.target := by
  obtain ⟨id, hget⟩ := hin
  obtain ⟨member, hmember⟩ := hfilled id shape hget name hslot
  obtain ⟨target, htarget, htargets⟩ := (Model.resolves_iff.mp hresolves).2 name hslot member hmember
  have hid := hkeyed _ _ htarget
  have havailable := hreaches target ⟨name, hslot, member, target, hmember, htarget, .self target⟩
  rw [hid] at havailable
  obtain ⟨found, hnext, rfl, hrest⟩ := exists_next hmember havailable
  refine ⟨found, hnext, ⟨_, htarget⟩, htargets, fun inner hinner => ?_⟩
  have hstays := hreaches inner ⟨name, hslot, member, found.target, hmember, htarget, hinner.holds⟩
  have hother : inner.id.text ≠ member.target.text := by
    intro heq
    obtain ⟨innerId, hinnerGet⟩ := hinner.exists_get?
    have hsame : innerId = member.target := by
      rw [← hkeyed _ _ hinnerGet]
      exact ShapeId.text_inj.mp heq
    rw [hsame, htarget, Option.some.injEq] at hinnerGet
    exact hacyclic inner (hinnerGet ▸ hinner)
  rw [hrest, SortedMap.erase, SortedMap.get?_filterKeys, if_pos (bne_iff_ne.mpr hother)]
  exact hstays

theorem exists_within (hin : ∃ id, model.get? id = some shape) (hresolves : model.Resolves shape)
    (hreaches : Reaches model available shape) : ∃ type, within model available shape = .ok type := by
  fun_induction within model available shape with
  | case1 available shape sparse htype =>
    rename_i ih
    have hslot : "member" ∈ shape.slots := by
      rw [Shape.slots, htype]
      exact List.mem_singleton_self _
    obtain ⟨found, hnext, hfound, hfoundResolves, hfoundReaches⟩ :=
      exists_next_of_resolves hkeyed hfilled hacyclic hin hresolves hreaches hslot
    obtain ⟨element, helement⟩ := ih found hfound hfoundResolves hfoundReaches
    exact ⟨list element sparse,
      bind_eq_ok_iff.mpr ⟨found, hnext, bind_eq_ok_iff.mpr ⟨element, helement, rfl⟩⟩⟩
  | case2 available shape sparse htype =>
    rename_i ih
    have hslots : shape.slots = ["key", "value"] := by
      rw [Shape.slots, htype]
    obtain ⟨first, hfirst, hkey, hkeyResolves, hkeyReaches⟩ :=
      exists_next_of_resolves hkeyed hfilled hacyclic hin hresolves hreaches
        (show "key" ∈ shape.slots by simp [hslots])
    obtain ⟨second, hsecond, hvalue, hvalueResolves, hvalueReaches⟩ :=
      exists_next_of_resolves hkeyed hfilled hacyclic hin hresolves hreaches
        (show "value" ∈ shape.slots by simp [hslots])
    obtain ⟨key, hkeyType⟩ := ih first hkey hkeyResolves hkeyReaches
    obtain ⟨value, hvalueType⟩ := ih second hvalue hvalueResolves hvalueReaches
    exact ⟨map key value sparse, bind_eq_ok_iff.mpr ⟨first, hfirst, bind_eq_ok_iff.mpr ⟨key, hkeyType,
      bind_eq_ok_iff.mpr ⟨second, hsecond, bind_eq_ok_iff.mpr ⟨value, hvalueType, rfl⟩⟩⟩⟩⟩
  | case3 available shape hlist hmap =>
    have htyped := (Model.resolves_iff.mp hresolves).1
    obtain ⟨type, hscalar⟩ := exists_scalar?_iff.mpr ⟨htyped, hlist, hmap⟩
    rw [hscalar]
    exact ⟨type, rfl⟩

end Acyclic

/-- A type shows that everything on the way to it could be resolved. -/
theorem resolves_of_within {type : KotlinType} (havailable : BelongsTo available model)
    (h : within model available shape = .ok type) : model.Resolves shape := by
  fun_induction within model available shape generalizing type with
  | case1 available shape sparse htype =>
    rename_i ih
    obtain ⟨found, hfound, h⟩ := bind_eq_ok_iff.mp h
    obtain ⟨element, helement, _⟩ := bind_eq_ok_iff.mp h
    obtain ⟨hrest, member, hmember, htarget⟩ := belongsTo_of_next havailable hfound
    rw [Model.resolves_iff, Shape.slots, htype]
    refine ⟨by decide, fun name hslot other hother => ?_⟩
    obtain rfl : name = "member" := List.mem_singleton.mp hslot
    obtain rfl : member = other := Option.some.inj (hmember.symm.trans hother)
    exact ⟨found.target, htarget, ih found hrest helement⟩
  | case2 available shape sparse htype =>
    rename_i ih
    obtain ⟨first, hfirst, h⟩ := bind_eq_ok_iff.mp h
    obtain ⟨key, hkey, h⟩ := bind_eq_ok_iff.mp h
    obtain ⟨second, hsecond, h⟩ := bind_eq_ok_iff.mp h
    obtain ⟨value, hvalue, _⟩ := bind_eq_ok_iff.mp h
    obtain ⟨hrest, member, hmember, htarget⟩ := belongsTo_of_next havailable hfirst
    obtain ⟨hrest', member', hmember', htarget'⟩ := belongsTo_of_next havailable hsecond
    rw [Model.resolves_iff, Shape.slots, htype]
    refine ⟨by decide, fun name hslot other hother => ?_⟩
    rcases List.mem_pair.mp hslot with rfl | rfl
    · obtain rfl : member = other := Option.some.inj (hmember.symm.trans hother)
      exact ⟨first.target, htarget, ih first hrest hkey⟩
    · obtain rfl : member' = other := Option.some.inj (hmember'.symm.trans hother)
      exact ⟨second.target, htarget', ih second hrest' hvalue⟩
  | case3 available shape hlist hmap =>
    cases hscalar : scalar? shape with
    | none =>
      rw [hscalar] at h
      cases h
    | some found =>
      rw [Model.resolves_iff, slots_of_scalar? hscalar]
      exact ⟨(exists_scalar?_iff.mp ⟨found, hscalar⟩).1, List.forall_mem_nil _⟩

/-! ## The text of a type -/

variable {settings : Settings}

/-- The name of a type that is no list or map, with its package. -/
def fullName? (settings : Settings) : KotlinType → Option String
  | builtin name => some ("kotlin." ++ name)
  | runtime package name => some (package ++ "." ++ name)
  | generated name => some (settings.modelPackage ++ "." ++ name)
  | _ => none

end KotlinType

/-- The nesting of a shape as a type: in place of each list and map its type with arguments, where those of sparse
ones have a `?` but for the keys, and in place of any other shape the name of its type. -/
inductive Model.Nests (model : Model) (settings : Settings) : Shape → TypeExpr → Prop where
  | leaf {shape : Shape} {type : KotlinType} {name : String} (hscalar : KotlinType.scalar? shape = some type)
      (hname : type.fullName? settings = some name) : model.Nests settings shape (.named name)
  | list {shape target : Shape} {member : Member} {element : TypeExpr} (htype : shape.type = .list)
      (hmember : shape.member? "member" = some member) (htarget : model.get? member.target = some target)
      (helement : model.Nests settings target element) :
      model.Nests settings shape
        (.applied "kotlin.collections.List" (.last element (shape.traits.contains Trait.sparse)))
  | map {shape first second : Shape} {keyMember valueMember : Member} {key value : TypeExpr}
      (htype : shape.type = .map)
      (hkeyMember : shape.member? "key" = some keyMember) (hfirst : model.get? keyMember.target = some first)
      (hkey : model.Nests settings first key)
      (hvalueMember : shape.member? "value" = some valueMember)
      (hsecond : model.get? valueMember.target = some second) (hvalue : model.Nests settings second value) :
      model.Nests settings shape
        (.applied "kotlin.collections.Map"
          (.cons key false (.last value (shape.traits.contains Trait.sparse))))

namespace KotlinType

theorem scalar?_eq_none_of_collection {shape : Shape} (h : shape.type = .list ∨ shape.type = .map) :
    scalar? shape = none := by
  rcases h with h | h <;> rw [scalar?, h]

end KotlinType

/-- A shape has one nesting at most. -/
theorem Model.Nests.unique {model : Model} {settings : Settings} {shape : Shape} {a b : TypeExpr}
    (ha : model.Nests settings shape a) (hb : model.Nests settings shape b) : a = b := by
  induction ha generalizing b with
  | leaf hscalar hname =>
    cases hb with
    | leaf hscalar' hname' =>
      obtain rfl := Option.some.inj (hscalar.symm.trans hscalar')
      rw [Option.some.inj (hname.symm.trans hname')]
    | list htype =>
      rw [KotlinType.scalar?_eq_none_of_collection (.inl htype)] at hscalar
      cases hscalar
    | map htype =>
      rw [KotlinType.scalar?_eq_none_of_collection (.inr htype)] at hscalar
      cases hscalar
  | list htype hmember htarget _ ih =>
    cases hb with
    | leaf hscalar =>
      rw [KotlinType.scalar?_eq_none_of_collection (.inl htype)] at hscalar
      cases hscalar
    | list _ hmember' htarget' helement =>
      obtain rfl := Option.some.inj (hmember.symm.trans hmember')
      obtain rfl := Option.some.inj (htarget.symm.trans htarget')
      rw [ih helement]
    | map htype' => exact absurd (htype.symm.trans htype') (by decide)
  | map htype hkeyMember hfirst _ hvalueMember hsecond _ ihkey ihvalue =>
    cases hb with
    | leaf hscalar =>
      rw [KotlinType.scalar?_eq_none_of_collection (.inr htype)] at hscalar
      cases hscalar
    | list htype' => exact absurd (htype.symm.trans htype') (by decide)
    | map _ hkeyMember' hfirst' hkey hvalueMember' hsecond' hvalue =>
      obtain rfl := Option.some.inj (hkeyMember.symm.trans hkeyMember')
      obtain rfl := Option.some.inj (hfirst.symm.trans hfirst')
      obtain rfl := Option.some.inj (hvalueMember.symm.trans hvalueMember')
      obtain rfl := Option.some.inj (hsecond.symm.trans hsecond')
      rw [ihkey hkey, ihvalue hvalue]

namespace KotlinType

theorem toList_argument (symbol : Symbol) (nullable : Bool) :
    (argument symbol nullable).toList = symbol.display.toList ++ nullMark nullable := by
  cases nullable with
  | false => exact (List.append_nil _).symm
  | true => exact String.toList_append

/-- A named type is displayed by its full name. -/
theorem display_of_fullName? {settings : Settings} {type : KotlinType} {name : String}
    (hnamed : type.isNamed = true) (hname : type.fullName? settings = some name) :
    (type.symbol settings).display = name := by
  cases type with
  | builtin found =>
    cases hname
    rfl
  | runtime package found =>
    cases hname
    obtain ⟨_, _, hpackage, _⟩ := Runtime.of_mem_types (List.contains_iff_mem.mp hnamed)
    exact (if_neg (ne_true_of_eq_false hpackage) : Symbol.qualify package found = _)
  | generated found =>
    cases hname
    have hpackage : settings.modelPackage.isEmpty = false := by
      rw [String.isEmpty_eq_false_iff]
      exact settings.modelPackage_ne (by decide)
    exact (if_neg (ne_true_of_eq_false hpackage) : Symbol.qualify settings.modelPackage found = _)
  | list => cases hnamed
  | map => cases hnamed

theorem display_list (settings : Settings) (element : KotlinType) (sparse : Bool) :
    ((list element sparse).symbol settings).display.toList = "kotlin.collections.List".toList ++
      '<' :: ((element.symbol settings).display.toList ++ nullMark sparse) ++ ['>'] := by
  have hopen : "kotlin.collections" ++ "." ++ "List<" = "kotlin.collections.List" ++ "<" := by
    decide
  rw [symbol, Symbol.display_dependingOnAll]
  show ("kotlin.collections" ++ "." ++ ("List<" ++ argument (element.symbol settings) sparse ++ ">")).toList = _
  rw [← String.append_assoc, ← String.append_assoc, hopen]
  simp only [String.toList_append, toList_argument, List.append_assoc, List.cons_append]
  rfl

theorem display_map (settings : Settings) (key value : KotlinType) (sparse : Bool) :
    ((map key value sparse).symbol settings).display.toList = "kotlin.collections.Map".toList ++
      '<' :: ((key.symbol settings).display.toList ++ nullMark false ++ ',' :: ' ' ::
        ((value.symbol settings).display.toList ++ nullMark sparse)) ++ ['>'] := by
  have hopen : "kotlin.collections" ++ "." ++ "Map<" = "kotlin.collections.Map" ++ "<" := by
    decide
  rw [symbol, Symbol.display_dependingOnAll]
  show ("kotlin.collections" ++ "." ++ ("Map<" ++ (key.symbol settings).display ++ ", "
    ++ argument (value.symbol settings) sparse ++ ">")).toList = _
  simp only [← String.append_assoc]
  rw [hopen]
  simp only [String.toList_append, toList_argument, List.append_assoc, List.cons_append]
  rfl

end KotlinType

/-! ## Names that are words -/

/-- Letters, digits and underscores of ASCII, and not underscores alone. -/
def Naming.IsShapeName (name : String) : Prop := IsIdentifier name ∧ ∃ c ∈ name.toList, c ≠ '_'

instance (name : String) : Decidable (Naming.IsShapeName name) :=
  @instDecidableAnd _ _ _ (List.decidableBEx _ name.toList)

theorem Naming.IsShapeName.isWord {name : String} (h : IsShapeName name) :
    isWord (pascalCase name).toList = true := by
  obtain ⟨hidentifier, c, hc, hother⟩ := h
  have hsep : isSeparator c = false :=
    isSeparator_eq_false Char.isAlphanum rfl rfl rfl ((hidentifier c hc).resolve_right hother)
  have hne := pascal_ne_nil_iff.mpr ⟨c, hc, hsep⟩
  rw [pascalCase, String.toList_ofList, SmithyKotlin.isWord, Bool.and_eq_true, Bool.not_eq_true',
    List.isEmpty_eq_false_iff, List.all_eq_true]
  refine ⟨hne, fun d hd => ?_⟩
  rw [isWordChar, hidentifier.isAlphanum_of_mem_pascal hd, Bool.true_or]

theorem Settings.isWord_of_isPackageSegment {segment : List Char} (h : isPackageSegment segment = true) :
    isWord segment = true := by
  rw [isWord, Bool.and_eq_true, Bool.not_eq_true', List.isEmpty_eq_false_iff, List.all_eq_true]
  refine ⟨(of_isPackageSegment h).1, fun c hc => ?_⟩
  rw [isWordChar, Bool.or_eq_true]
  rcases (isPackageSegment_iff.mp h).mem hc with hlower | hdigit | hmark
  · exact .inl (Text.isAlphanum_of_isAlpha (Text.isAlpha_of_isLower hlower))
  · exact .inl (Text.isAlphanum_of_isDigit hdigit)
  · exact .inr (decide_eq_true hmark)

/-- Settings that pass their check have words between the points of the package of the generated types. -/
theorem Settings.isWord_of_mem_modelPackage {settings : Settings} (hcheck : settings.check = .ok ()) :
    ∀ word ∈ Text.pieces (· == '.') settings.modelPackage.toList, isWord word = true := by
  have hsplit : settings.modelPackage.toList = settings.packageName.toList ++ '.' :: "model".toList := by
    rw [modelPackage, String.toList_append]
    rfl
  have hmodel : Text.pieces (· == '.') "model".toList = ["model".toList] := by
    decide
  rw [hsplit, Text.pieces_append_cons rfl, hmodel]
  intro word hmem
  rcases List.mem_append.mp hmem with hmem | hmem
  · exact isWord_of_isPackageSegment (List.all_eq_true.mp (isPackage_of_check hcheck) word hmem)
  · rw [List.mem_singleton.mp hmem]
    decide

namespace KotlinType

variable {model : Model} {settings : Settings} {shape : Shape}

/-- The names of Kotlin itself and of the runtime. -/
theorem exists_fullName?_of_not_declares {type : KotlinType} (settings : Settings)
    (hdeclares : ¬ (shape.type = .struct ∨ shape.type = .union)) (hscalar : scalar? shape = some type) :
    ∃ name, type.fullName? settings = some name ∧ IsQualifiedName name := by
  rw [scalar?] at hscalar
  split at hscalar <;> first
    | exact absurd (.inl ‹_›) hdeclares
    | exact absurd (.inr ‹_›) hdeclares
    | (cases hscalar; done)
    | (cases hscalar; exact ⟨_, rfl, by decide +kernel⟩)
    | (split at hscalar <;> cases hscalar <;> exact ⟨_, rfl, by decide +kernel⟩)

/-- The names of types are words behind their packages. -/
theorem exists_fullName? {type : KotlinType} (hcheck : settings.check = .ok ())
    (hname : shape.type = .struct ∨ shape.type = .union → Naming.IsShapeName shape.id.name)
    (hscalar : scalar? shape = some type) :
    ∃ name, type.fullName? settings = some name ∧ IsQualifiedName name := by
  by_cases hdeclares : shape.type = .struct ∨ shape.type = .union
  · rw [Shape.scalar?_of_declares hdeclares, Option.some.injEq] at hscalar
    subst hscalar
    split
    · exact ⟨_, rfl, by decide +kernel⟩
    · exact ⟨_, rfl, isQualifiedName_append (Settings.isWord_of_mem_modelPackage hcheck) (hname hdeclares).isWord⟩
  · exact exists_fullName?_of_not_declares settings hdeclares hscalar

/-- The type of a shape is written as the nesting of the shape. -/
theorem exists_nesting {available : SortedMap Shape} {type : KotlinType} (hcheck : settings.check = .ok ())
    (hnames : ∀ id shape, model.get? id = some shape → shape.type = .struct ∨ shape.type = .union →
      Naming.IsShapeName shape.id.name)
    (hin : ∃ id, model.get? id = some shape) (havailable : BelongsTo available model)
    (h : within model available shape = .ok type) :
    ∃ tree, model.Nests settings shape tree ∧ Derives (type.symbol settings).display.toList tree := by
  fun_induction within model available shape generalizing type with
  | case1 available shape sparse htype =>
    rename_i ih
    obtain ⟨found, hfound, h⟩ := bind_eq_ok_iff.mp h
    obtain ⟨element, helement, h⟩ := bind_eq_ok_iff.mp h
    cases h
    obtain ⟨hrest, member, hmember, htarget⟩ := belongsTo_of_next havailable hfound
    obtain ⟨tree, hnests, hderives⟩ := ih found ⟨_, htarget⟩ hrest helement
    refine ⟨_, .list htype hmember htarget hnests, ?_⟩
    rw [display_list]
    exact .applied (by decide +kernel) (.last sparse hderives)
  | case2 available shape sparse htype =>
    rename_i ih
    obtain ⟨first, hfirst, h⟩ := bind_eq_ok_iff.mp h
    obtain ⟨key, hkey, h⟩ := bind_eq_ok_iff.mp h
    obtain ⟨second, hsecond, h⟩ := bind_eq_ok_iff.mp h
    obtain ⟨value, hvalue, h⟩ := bind_eq_ok_iff.mp h
    cases h
    obtain ⟨hrest, member, hmember, htarget⟩ := belongsTo_of_next havailable hfirst
    obtain ⟨hrest', member', hmember', htarget'⟩ := belongsTo_of_next havailable hsecond
    obtain ⟨keyTree, hkeyNests, hkeyDerives⟩ := ih first ⟨_, htarget⟩ hrest hkey
    obtain ⟨valueTree, hvalueNests, hvalueDerives⟩ := ih second ⟨_, htarget'⟩ hrest' hvalue
    refine ⟨_, .map htype hmember htarget hkeyNests hmember' htarget' hvalueNests, ?_⟩
    rw [display_map]
    exact .applied (by decide +kernel) (.cons false hkeyDerives (.last sparse hvalueDerives))
  | case3 available shape _ _ =>
    cases hscalar : scalar? shape with
    | none =>
      rw [hscalar] at h
      cases h
    | some found =>
      rw [hscalar] at h
      cases h
      obtain ⟨id, hget⟩ := hin
      obtain ⟨name, hname, hqualified⟩ := exists_fullName? hcheck (hnames id shape hget) hscalar
      rw [display_of_fullName? (isNamed_of_scalar? hscalar) hname]
      exact ⟨.named name, .leaf hscalar hname, .named hqualified⟩

end KotlinType

/-! ## Models that come from documents -/

theorem Shape.exists_member? {shape : Shape} {name : String} (h : name ∈ shape.memberNames) :
    ∃ member, shape.member? name = some member := by
  obtain ⟨member, hmem, hname⟩ := List.mem_map.mp h
  exact Option.isSome_iff_exists.mp (List.find?_isSome.mpr ⟨member, hmem, beq_iff_eq.mpr hname⟩)

/-- The members that a body defines are there for the slots of its shape. -/
theorem Definition.mem_memberNames_of_slots {definition : Definition} {id : ShapeId} {type : ShapeType}
    (htype : definition.body.shapeType? = some type) {name : String}
    (hslot : name ∈ (definition.shape id type).slots) : name ∈ (definition.shape id type).memberNames := by
  rw [Document.memberNames_shape]
  obtain ⟨body, traits⟩ := definition
  cases body with
  | simple simpleType =>
    cases htype
    cases simpleType <;> cases hslot
  | group groupType members =>
    cases htype
    cases groupType <;> cases hslot
  | apply => cases htype
  | service | operation | resource =>
    cases htype
    cases hslot
  | list | set | map =>
    cases htype
    exact hslot

/-- Every list and map of a converted document has its members. -/
theorem Document.filled_of_toModel {document : Document} {model : Model}
    (hmodel : document.toModel = .ok model) : model.Filled := by
  obtain ⟨_, rfl⟩ := toModel_eq_ok_iff_described.mp hmodel
  intro id shape hget name hslot
  rw [get?_described, Option.map_eq_some_iff] at hget
  obtain ⟨found, hfound, rfl⟩ := hget
  have hnames : (found.behind document.applications id).memberNames = found.memberNames := by
    rw [Shape.memberNames, Shape.behind, List.map_map]
    rfl
  refine Shape.exists_member? ?_
  rw [hnames]
  by_cases hprelude : id ∈ Prelude.ids
  · have hall : ∀ shape ∈ Prelude.shapes, shape.slots = [] := by
      decide +kernel
    rw [get?_readProgress_of_mem hprelude] at hfound
    have hnone : found.slots = [] := hall found (Prelude.get?_model_iff.mp hfound).1
    rw [show (found.behind document.applications id).slots = found.slots from rfl, hnone] at hslot
    cases hslot
  · obtain ⟨definition, type, _, htype, rfl⟩ := (get?_readProgress_of_not_mem hprelude).mp hfound
    exact Definition.mem_memberNames_of_slots htype hslot

/-- In a model in which no list or map is inside of itself, a shape has a symbol when everything that it holds is
in the model and can be a value.  The type of the symbol derives one tree, the nesting of the shape. -/
theorem SymbolProvider.shapeSymbol_nesting (document : Document) (model : Model) (settings : Settings) (id : ShapeId)
    (shape : Shape) (hmodel : document.toModel = .ok model) (hcheck : settings.check = .ok ())
    (hacyclic : model.Acyclic)
    (hnames : ∀ id shape, model.get? id = some shape → shape.type = .struct ∨ shape.type = .union →
      Naming.IsShapeName shape.id.name)
    (hget : model.get? id = some shape) :
    ((∃ symbol, (kotlin settings).shapeSymbol model shape = .ok symbol) ↔ model.Resolves shape) ∧
    ∀ symbol, (kotlin settings).shapeSymbol model shape = .ok symbol →
      ∃ tree, (∀ other, model.Nests settings shape other ↔ other = tree) ∧
        ∀ other, Derives symbol.display.toList other ↔ other = tree := by
  have hkeyed := Document.wellKeyed_of_toModel hmodel
  have hbelongs : KotlinType.BelongsTo model.shapes model := fun _ _ hfound => hfound
  constructor
  · constructor
    · intro h
      obtain ⟨symbol, hsymbol⟩ := h
      obtain ⟨type, htype, _⟩ := map_eq_ok_iff.mp hsymbol
      exact KotlinType.resolves_of_within hbelongs htype
    · intro hresolves
      have hreaches : KotlinType.Reaches model model.shapes shape := by
        intro inner hinside
        obtain ⟨innerId, hinner⟩ := hinside.exists_get?
        rw [hkeyed _ _ hinner]
        exact hinner
      obtain ⟨type, htype⟩ := KotlinType.exists_within hkeyed (Document.filled_of_toModel hmodel) hacyclic
        ⟨id, hget⟩ hresolves hreaches
      exact ⟨type.symbol settings, map_eq_ok_iff.mpr ⟨type, htype, rfl⟩⟩
  · intro symbol hsymbol
    obtain ⟨type, htype, rfl⟩ := map_eq_ok_iff.mp hsymbol
    obtain ⟨tree, hnests, hderives⟩ :=
      KotlinType.exists_nesting hcheck hnames ⟨id, hget⟩ hbelongs htype
    refine ⟨tree, fun other => ⟨fun h => h.unique hnests, ?_⟩, fun other => ⟨fun h => h.unique hderives, ?_⟩⟩
    · rintro rfl
      exact hnests
    · rintro rfl
      exact hderives

/-! ## Pages under their names -/

namespace Nesting

def sparse : TraitList := ⟨[(Trait.sparse, Json.emptyObject)], by decide⟩

/-- A map of lists, both sparse, of a structure. -/
def catalog : Document where
  version := "2.0"
  shapes := ⟨[("com.example#Index", ⟨.map ⟨"smithy.api#String", {}⟩ ⟨"com.example#Pages", {}⟩, sparse⟩),
    ("com.example#Pages", ⟨.list ⟨"com.example#Page", {}⟩, sparse⟩),
    ("com.example#Page", ⟨.group .struct {}, {}⟩)], by decide⟩
  metadata := {}

def catalogSettings : Settings := { packageName := "com.example", runtimeVersion := "1.0.0" }

/-- How deep lists and maps of the catalog are. -/
def depth (id : ShapeId) : Nat :=
  if id = ⟨"com.example#Index"⟩ then 2 else if id = ⟨"com.example#Pages"⟩ then 1 else 0

/-- Which hypotheses are seen to hold of the model, and the type of the map. -/
def view (model : Model) : Bool × Bool × Option String :=
  (decide (∀ entry ∈ model.shapes.entries, ∀ name ∈ entry.2.slots, ∀ member ∈ entry.2.member? name,
      depth member.target < depth ⟨entry.1⟩),
    decide (∀ entry ∈ model.shapes.entries, entry.2.type = .struct ∨ entry.2.type = .union →
      Naming.IsShapeName entry.2.id.name),
    (model.get? ⟨"com.example#Index"⟩).bind fun shape =>
      ((SymbolProvider.kotlin catalogSettings).shapeSymbol model shape).toOption.map Symbol.display)

theorem shapeSymbol_nesting_catalog :
    catalogSettings.check = .ok () ∧ ∃ model shape symbol, catalog.toModel = .ok model ∧ model.Acyclic ∧
      model.get? ⟨"com.example#Index"⟩ = some shape ∧
      (SymbolProvider.kotlin catalogSettings).shapeSymbol model shape = .ok symbol ∧
      symbol.display =
        "kotlin.collections.Map<kotlin.String, kotlin.collections.List<com.example.model.Page?>?>" ∧
      model.Resolves shape ∧
      ∃ tree, (∀ other, model.Nests catalogSettings shape other ↔ other = tree) ∧
        ∀ other, Derives symbol.display.toList other ↔ other = tree := by
  have hcheck : catalogSettings.check = .ok () := by
    decide +kernel
  have hseen : catalog.toModel.toOption.map view = some (true, true,
      some "kotlin.collections.Map<kotlin.String, kotlin.collections.List<com.example.model.Page?>?>") := by
    decide +kernel
  obtain ⟨model, hmodel, hview⟩ := map_toOption_eq_some_iff.mp hseen
  obtain ⟨hranked, hview⟩ := Prod.mk.inj hview
  obtain ⟨hnamed, htext⟩ := Prod.mk.inj hview
  obtain ⟨shape, hget, htext⟩ := Option.bind_eq_some_iff.mp htext
  obtain ⟨symbol, hsymbol, hdisplay⟩ := map_toOption_eq_some_iff.mp htext
  have hacyclic := Model.acyclic_of_rank (Document.wellKeyed_of_toModel hmodel) depth (of_decide_eq_true hranked)
  have hnames (id : ShapeId) (shape : Shape) (hget : model.get? id = some shape) :
      shape.type = .struct ∨ shape.type = .union → Naming.IsShapeName shape.id.name :=
    of_decide_eq_true hnamed (id.text, shape) (SortedMap.get?_eq_some_iff.mp hget)
  obtain ⟨hresolves, hnesting⟩ := SymbolProvider.shapeSymbol_nesting catalog model catalogSettings
    ⟨"com.example#Index"⟩ shape hmodel hcheck hacyclic hnames hget
  exact ⟨hcheck, model, shape, symbol, hmodel, hacyclic, hget, hsymbol, hdisplay,
    hresolves.mp ⟨symbol, hsymbol⟩, hnesting symbol hsymbol⟩

end Nesting

end SmithyKotlin
