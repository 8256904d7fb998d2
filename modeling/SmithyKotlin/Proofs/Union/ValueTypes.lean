import SmithyKotlin.Proofs.Naming.Spelling
import SmithyKotlin.Proofs.Symbol.Nesting
import SmithyKotlin.Proofs.Union.Accessors

/-!
# Types of values next to nested classes

Inside the class of a union the name of a variant means its nested class.

* `UnionDeclaration.signatures_emit`: the type of a value is written there in the constructor of its variant and as
  what the two accessors return.
* `Uncaptured`: in none of these places does any name in it mean a nested class.  A name alone is that of no
  variant, and any other name starts with a package, in small letters (`StartsSmall`), while variants start with
  anything else.
* `UnionDeclaration.plan_uncaptured` says so of every plan with the Kotlin symbols.
-/

namespace SmithyKotlin

/-! ## Names in types -/

mutual

/-- All names in a type, also those in its arguments. -/
def TypeExpr.names : TypeExpr → List String
  | .named name => [name]
  | .applied name arguments => name :: arguments.names

def TypeArguments.names : TypeArguments → List String
  | .last type _ => type.names
  | .cons type _ rest => type.names ++ rest.names

end

/-- Text of a type, possibly with a `?`, in which no name means one of the classes.  Either all names in the type
stand behind their packages and none of the packages starts with the name of a class, or the type is a single word
that names no class. -/
inductive Uncaptured (classes : List String) : List Char → Prop where
  | qualified {text : List Char} {type : TypeExpr} (nullable : Bool) (htype : Derives text type)
      (hroots : ∀ name ∈ type.names, Text.before '.' name ∉ classes) :
      Uncaptured classes (text ++ nullMark nullable)
  | simple {name : String} (nullable : Bool) (hword : isWord name.toList = true) (hname : name ∉ classes) :
      Uncaptured classes (name.toList ++ nullMark nullable)

/-- The text starts with a small letter. -/
def StartsSmall (text : String) : Prop := text.toList.head?.any Char.isLower = true

instance : DecidablePred StartsSmall := fun text =>
  inferInstanceAs (Decidable (text.toList.head?.any Char.isLower = true))

theorem StartsSmall.append {first : String} (h : StartsSmall first) (second : String) :
    StartsSmall (first ++ second) := by
  rw [StartsSmall, String.toList_append] at *
  cases hfirst : first.toList with
  | nil =>
    rw [hfirst] at h
    cases h
  | cons c rest =>
    rw [hfirst] at h
    exact h

/-- A package that starts with a small letter does so up to its first point. -/
theorem StartsSmall.before {name : String} (h : StartsSmall name) : StartsSmall (Text.before '.' name) := by
  rcases (Text.before_eq_iff (Text.not_mem_before '.' name)).mp rfl with hwhole | ⟨rest, hsplit⟩
  · rwa [← hwhole]
  · have hlist := congrArg String.toList hsplit
    rw [String.toList_append, String.toList_append, String.toList_singleton, List.append_assoc] at hlist
    rw [StartsSmall, hlist] at h
    rw [StartsSmall]
    cases hfirst : (Text.before '.' name).toList with
    | nil =>
      rw [hfirst] at h
      have hpoint : '.'.isLower = true := h
      exact absurd hpoint (by decide)
    | cons c others =>
      rw [hfirst] at h
      exact h

/-! ## Packages and variants -/

namespace Settings

variable {settings : Settings}

/-- Settings that pass their check name the catch-all variant like a type. -/
theorem isTypeName_of_check (h : settings.check = .ok ()) : isTypeName settings.unknownVariantName = true :=
  (check_eq_ok_iff.mp h).2.2.2

theorem startsSmall_modelPackage (h : settings.check = .ok ()) : StartsSmall settings.modelPackage := by
  have hfirst {segment : List Char} (hsegment : SegmentText segment) (behind : List Char) :
      (segment ++ behind).head?.any Char.isLower = true := by
    obtain ⟨hfirst, _⟩ := hsegment
    exact hfirst
  have hpackage := isPackage_iff.mp (isPackage_of_check h)
  refine StartsSmall.append ?_ ".model"
  rw [StartsSmall]
  generalize settings.packageName.toList = text at hpackage
  cases hpackage with
  | last hsegment =>
    have hsmall := hfirst hsegment []
    rwa [List.append_nil] at hsmall
  | cons hsegment _ => exact hfirst hsegment _

end Settings

/-- Names of types start with packages, so with small letters. -/
theorem KotlinType.startsSmall_fullName? {settings : Settings} (hcheck : settings.check = .ok ()) {type : KotlinType}
    (hnamed : type.isNamed = true) {name : String} (hname : type.fullName? settings = some name) :
    StartsSmall name := by
  have hruntime : ∀ type ∈ Runtime.types, type.package.toList.head?.any Char.isLower = true := by
    decide +kernel
  cases type with
  | builtin found =>
    cases hname
    have hkotlin : StartsSmall "kotlin." := by
      rfl
    exact hkotlin.append found
  | runtime package found =>
    cases hname
    have hpackage : StartsSmall package := hruntime _ (List.contains_iff_mem.mp hnamed)
    exact (hpackage.append ".").append found
  | generated found =>
    cases hname
    exact ((Settings.startsSmall_modelPackage hcheck).append ".").append found
  | list => cases hname
  | map => cases hname

/-- All names in the nesting of a shape start with small letters. -/
theorem Model.Nests.startsSmall {model : Model} {settings : Settings} (hcheck : settings.check = .ok ())
    {shape : Shape} {tree : TypeExpr} (h : model.Nests settings shape tree) :
    ∀ name ∈ tree.names, StartsSmall name := by
  have hcollection : StartsSmall "kotlin.collections.List" ∧ StartsSmall "kotlin.collections.Map" := by
    decide
  induction h with
  | leaf hscalar hname =>
    intro name hmem
    obtain rfl := List.mem_singleton.mp hmem
    exact KotlinType.startsSmall_fullName? hcheck (KotlinType.isNamed_of_scalar? hscalar) hname
  | list _ _ _ _ ih =>
    intro name hmem
    rcases List.mem_cons.mp hmem with rfl | hmem
    · exact hcollection.1
    · exact ih name hmem
  | map _ _ _ _ _ _ _ ihkey ihvalue =>
    intro name hmem
    rcases List.mem_cons.mp hmem with rfl | hmem
    · exact hcollection.2
    · rcases List.mem_append.mp hmem with hkey | hvalue
      · exact ihkey name hkey
      · exact ihvalue name hvalue

namespace UnionDeclaration

variable {model : Model} {symbols : SymbolProvider} {settings : Settings} {id : ShapeId}
  {declaration : UnionDeclaration}

theorem unknownName_of_plan (hplan : plan model symbols settings id = .ok declaration) :
    declaration.unknownName = settings.unknownVariantName := by
  obtain ⟨union, hget⟩ := exists_union_of_plan hplan
  rw [plan_eq_of_targets hget (type_of_plan hget hplan) (targets_of_plan hget hplan)] at hplan
  obtain ⟨_, _, hfinish⟩ := bind_eq_ok_iff.mp hplan
  obtain ⟨_, _, h⟩ := bind_eq_ok_iff.mp hfinish
  obtain ⟨_, _, h⟩ := bind_eq_ok_iff.mp h
  cases h
  rfl

/-- No variant starts with a small letter. -/
theorem not_startsSmall_of_mem_variantNames (hcheck : settings.check = .ok ())
    (hplan : plan model symbols settings id = .ok declaration) {name : String}
    (hmem : name ∈ declaration.variantNames) : ¬ StartsSmall name := by
  intro hstarts
  obtain ⟨c, hhead, hlower⟩ := (Option.any_eq_true _ _).mp hstarts
  rcases List.mem_append.mp hmem with hvariant | hunknown
  · obtain ⟨variant, _, rfl⟩ := List.mem_map.mp hvariant
    have hcapital : c.isLower = false := by
      rw [Variant.name, Naming.pascalCase, String.toList_ofList] at hhead
      exact Naming.isLower_of_head?_pascal hhead
    rw [hcapital] at hlower
    cases hlower
  · obtain rfl := List.mem_singleton.mp hunknown
    have htype := Settings.isTypeName_of_check hcheck
    rw [← unknownName_of_plan hplan, Settings.isTypeName, hhead, Bool.and_eq_true] at htype
    have hcapital : c.isUpper = true := htype.1
    have hsmall := Text.isUpper_of_isLower hlower
    rw [Text.isUpper_ascii (Text.ascii_of_isLower hlower), hcapital] at hsmall
    cases hsmall

end UnionDeclaration

/-! ## The text of a value type -/

theorem Symbol.toList_marked (symbol : Symbol) (text : String) :
    (symbol.marked text).toList = text.toList ++ nullMark symbol.nullable := by
  rw [marked]
  cases symbol.nullable with
  | false => exact (List.append_nil _).symm
  | true => exact String.toList_append

/-- A word has no `<`, so it is its own name without arguments. -/
theorem before_eq_self_of_isWord {name : String} (h : isWord name.toList = true) : Text.before '<' name = name := by
  have hword := List.all_eq_true.mp (Bool.and_eq_true_iff.mp h).2
  have hopen : '<' ∉ name.toList := fun hmem => absurd (hword '<' hmem) (by decide)
  exact (Text.before_eq_iff hopen).mpr (.inl rfl)

namespace KotlinType

variable {model : Model} {settings : Settings} {target : Shape} {type : KotlinType}

/-- A type that is written without its package is a single word. -/
theorem isWord_name (hnames : target.type = .struct ∨ target.type = .union → Naming.IsShapeName target.id.name)
    (htype : ofShape model target = .ok type) (hshort : (type.symbol settings).isBuiltin = false) :
    isWord (type.symbol settings).name.toList = true := by
  have hruntime : ∀ type ∈ Runtime.types, isWord type.name.toList = true := by
    decide +kernel
  have hcontrary (hlong : (type.symbol settings).isShort = false) : False := by
    rw [Symbol.isShort_of_isBuiltin_eq_false hshort] at hlong
    cases hlong
  rcases ofShape_cases htype with hscalar | ⟨_, hcollection⟩
  · have hnamed := isNamed_of_scalar? hscalar
    cases type with
    | builtin name => exact (hcontrary (Symbol.isShort_eq_false (.inl rfl))).elim
    | runtime package name => exact hruntime _ (List.contains_iff_mem.mp hnamed)
    | generated name =>
      obtain ⟨hgenerated, rfl⟩ := isGenerated_of_scalar? hscalar (mem_generatedNames_generated.mpr rfl)
      exact (hnames hgenerated.1).isWord
    | list => cases hnamed
    | map => cases hnamed
  · exact (hcontrary (isShort_of_isCollection hcollection)).elim

/-- A type is written so that no class is meant by a name in it, whether it may be null or not, as long as no class
starts with a small letter. -/
theorem uncaptured_valueReference (hcheck : settings.check = .ok ())
    (hnames : ∀ id shape, model.get? id = some shape → shape.type = .struct ∨ shape.type = .union →
      Naming.IsShapeName shape.id.name)
    (hget : ∃ id, model.get? id = some target) (htype : ofShape model target = .ok type) {classes : List String}
    (hclasses : ∀ name ∈ classes, ¬ StartsSmall name) {symbol : Symbol}
    (hname : symbol.name = (type.symbol settings).name) (hpackage : symbol.package = (type.symbol settings).package) :
    Uncaptured classes (UnionDeclaration.valueReference classes symbol).text.toList := by
  obtain ⟨tree, hnests, hderives⟩ := exists_nesting hcheck hnames hget (fun _ _ hfound => hfound) htype
  have hsame : (type.symbol settings).display = symbol.qualifiedName := by
    rw [Symbol.display, Symbol.marked, nullable_symbol, if_neg Bool.false_ne_true, Symbol.qualifiedName,
      Symbol.qualifiedName, hname, hpackage]
  have hqualified : Uncaptured classes (symbol.marked symbol.qualifiedName).toList := by
    rw [Symbol.toList_marked]
    refine .qualified symbol.nullable (hsame ▸ hderives) fun name hmem hclass => ?_
    exact hclasses _ hclass (hnests.startsSmall hcheck name hmem).before
  rw [UnionDeclaration.valueReference]
  split
  · exact hqualified
  · rename_i hshown
    rw [List.contains_iff_mem] at hshown
    show Uncaptured classes symbol.referenceText.toList
    rw [Symbol.referenceText]
    cases hbuiltin : symbol.isBuiltin with
    | true => exact hqualified
    | false =>
      have hshort : (type.symbol settings).isBuiltin = false := by
        rw [← hbuiltin, Symbol.isBuiltin, Symbol.isBuiltin, hpackage]
      obtain ⟨id, hget⟩ := hget
      have hword : isWord symbol.name.toList = true := by
        rw [hname]
        exact isWord_name (hnames id target hget) htype hshort
      rw [if_neg Bool.false_ne_true, Symbol.toList_marked]
      refine .simple symbol.nullable hword ?_
      rwa [Symbol.rawName, before_eq_self_of_isWord hword] at hshown

end KotlinType

/-! ## The lines with value types -/

/-- How lines start that declare a data class or a public function. -/
def signatureStarts : List String := ["public data class ", "public fun "]

/-- The line, if it declares a data class or a public function. -/
def signature? (line : String) : Option String :=
  if signatureStarts.any (fun start => start.toList.isPrefixOf line.toList) then some line else none

/-- The data class or public function that the instruction writes, alone or as a header. -/
def Instruction.signature? : Instruction → Option String
  | write line => SmithyKotlin.signature? line
  | openBlock header => SmithyKotlin.signature? header
  | _ => none

/-- The lines that declare data classes and public functions. -/
def signatures (instructions : List Instruction) : List String := instructions.filterMap Instruction.signature?

theorem signatures_eq_linesStarting (instructions : List Instruction) :
    signatures instructions = linesStarting signatureStarts instructions :=
  filterMap_eq_linesStarting fun instruction _ => by cases instruction <;> rfl

namespace UnionDeclaration

/-- The class of a union declares its variants and then their accessors, and no other data class or public function. -/
theorem signatures_emit (declaration : UnionDeclaration) :
    signatures declaration.emit =
      declaration.variants.map declaration.classSignature ++
        declaration.variants.flatMap fun variant =>
          [declaration.assertSignature variant, declaration.optionalSignature variant] := by
  have hannotation : Apart signatureStarts ["@Deprecated("] := by
    decide
  have hclass (variant : Variant) : startsIn signatureStarts (declaration.classSignature variant) = true :=
    startsIn_mono (declaration.startsIn_classSignature variant) (by decide)
  have hassert (variant : Variant) : startsIn signatureStarts (declaration.assertSignature variant) = true :=
    startsIn_mono (declaration.startsIn_assertSignature variant) (by decide)
  have hoptional (variant : Variant) : startsIn signatureStarts (declaration.optionalSignature variant) = true :=
    startsIn_mono (declaration.startsIn_optionalSignature variant) (by decide)
  rw [signatures_eq_linesStarting, linesStarting_emit (by decide) (by decide), filter_annotation hannotation]
  simp [List.filter_append, filter_annotation hannotation, hclass, hassert, hoptional, List.map_eq_flatMap]

variable {model : Model} {settings : Settings} {id : ShapeId} {declaration : UnionDeclaration}

/-- A value type comes from the type of a shape, which it is or is the nullable form of. -/
theorem symbol_of_mem_variants {union : Shape} (hget : model.get? id = some union)
    (hplan : plan model (.kotlin settings) settings id = .ok declaration) {variant : Variant}
    (hmem : variant ∈ declaration.variants) :
    ∃ id target type, model.get? id = some target ∧ KotlinType.ofShape model target = .ok type ∧
      variant.symbol.name = (type.symbol settings).name ∧
      variant.symbol.package = (type.symbol settings).package := by
  obtain ⟨member, hmember⟩ := exists_of_forall₂ (variants_of_plan hget hplan).flip variant hmem
  obtain ⟨_, _, h⟩ := bind_eq_ok_iff.mp hmember
  obtain ⟨symbol, hsymbol, h⟩ := bind_eq_ok_iff.mp h
  cases h
  obtain ⟨target, type, htarget, htype, rfl⟩ := SymbolProvider.memberSymbol_eq_ok_iff.mp hsymbol
  refine ⟨_, target, type, htarget, htype, ?_⟩
  split
  · exact ⟨rfl, rfl⟩
  · exact ⟨rfl, rfl⟩

/-- No nested class is meant by a name in the type of a value, wherever it stands in the class of a union. -/
theorem plan_uncaptured (model : Model) (settings : Settings) (id : ShapeId) (declaration : UnionDeclaration)
    (hcheck : settings.check = .ok ())
    (hnames : ∀ id shape, model.get? id = some shape → shape.type = .struct ∨ shape.type = .union →
      Naming.IsShapeName shape.id.name)
    (hplan : plan model (.kotlin settings) settings id = .ok declaration) :
    signatures declaration.emit =
        declaration.variants.map declaration.classSignature ++
          declaration.variants.flatMap (fun variant =>
            [declaration.assertSignature variant, declaration.optionalSignature variant]) ∧
      ∀ variant ∈ declaration.variants,
        Uncaptured declaration.variantNames (declaration.valueType variant).toList ∧
          Uncaptured declaration.variantNames (declaration.optionalValueType variant).toList := by
  refine ⟨signatures_emit declaration, fun variant hmem => ?_⟩
  obtain ⟨union, hget⟩ := exists_union_of_plan hplan
  obtain ⟨targetId, target, type, htarget, htype, hname, hpackage⟩ := symbol_of_mem_variants hget hplan hmem
  have hclasses (name : String) (hclass : name ∈ declaration.variantNames) : ¬ StartsSmall name :=
    not_startsSmall_of_mem_variantNames hcheck hplan hclass
  constructor
  · exact KotlinType.uncaptured_valueReference hcheck hnames ⟨targetId, htarget⟩ htype hclasses hname hpackage
  · exact KotlinType.uncaptured_valueReference hcheck hnames ⟨targetId, htarget⟩ htype hclasses hname hpackage

/-! ## A variant like a type of the runtime -/

/-- A union in which the types of two members have the name of a variant. -/
def moment : Shape :=
  { id := ⟨"com.example#Moment"⟩, type := .union
    members := [.of ⟨"com.example#Moment"⟩ "instant" ⟨"smithy.api#Timestamp"⟩,
      .of ⟨"com.example#Moment"⟩ "moment" ⟨"com.example#Moment"⟩,
      .of ⟨"com.example#Moment"⟩ "total" ⟨"smithy.api#BigInteger"⟩] }

def momentModel : Model :=
  [{ id := ⟨"smithy.api#Timestamp"⟩, type := .timestamp },
    { id := ⟨"smithy.api#BigInteger"⟩, type := .bigInteger }, moment].foldl Model.insert {}

def momentSettings : Settings := { packageName := "com.example", runtimeVersion := "1.0.0" }

theorem get?_moment : momentModel.get? moment.id = some moment := by
  simp only [momentModel, List.foldl_cons, List.foldl_nil]
  rw [Model.get?_insert, if_pos rfl]

theorem plan_uncaptured_moment :
    momentSettings.check = .ok () ∧ ∃ declaration,
      plan momentModel (.kotlin momentSettings) momentSettings moment.id = .ok declaration ∧
      declaration.variantNames = ["Instant", "Moment", "Total", "SdkUnknown"] ∧
      declaration.variants.map declaration.optionalValueType =
        ["aws.smithy.kotlin.runtime.time.Instant?", "com.example.model.Moment?", "BigInteger?"] ∧
      ∀ variant ∈ declaration.variants,
        Uncaptured declaration.variantNames (declaration.valueType variant).toList ∧
          Uncaptured declaration.variantNames (declaration.optionalValueType variant).toList := by
  have hcheck : momentSettings.check = .ok () := by
    decide +kernel
  have hnames (id : ShapeId) (shape : Shape) (hget : momentModel.get? id = some shape) :
      shape.type = .struct ∨ shape.type = .union → Naming.IsShapeName shape.id.name := by
    have hall : ∀ entry ∈ momentModel.shapes.entries, entry.2.type = .struct ∨ entry.2.type = .union →
        Naming.IsShapeName entry.2.id.name := by
      decide +kernel
    exact hall (id.text, shape) (SortedMap.get?_eq_some_iff.mp hget)
  have hseen : (plan momentModel (.kotlin momentSettings) momentSettings moment.id).toOption.map
      (fun declaration => (declaration.variantNames, declaration.variants.map declaration.optionalValueType)) =
        some (["Instant", "Moment", "Total", "SdkUnknown"],
          ["aws.smithy.kotlin.runtime.time.Instant?", "com.example.model.Moment?", "BigInteger?"]) := by
    rw [plan_eq_of_pairwise get?_moment rfl (by decide +kernel) (by decide +kernel)]
    decide +kernel
  obtain ⟨declaration, hplan, hview⟩ := map_toOption_eq_some_iff.mp hseen
  obtain ⟨hvariants, htypes⟩ := Prod.mk.inj hview
  exact ⟨hcheck, declaration, hplan, hvariants, htypes,
    (plan_uncaptured momentModel momentSettings moment.id declaration hcheck hnames hplan).2⟩

end UnionDeclaration

end SmithyKotlin
