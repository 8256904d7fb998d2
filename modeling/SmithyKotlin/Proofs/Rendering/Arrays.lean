import SmithyKotlin.Proofs.Structure.Planning
import SmithyKotlin.Proofs.Symbol.Mentions
import SmithyKotlin.Proofs.Union.Planning

/-!
# Arrays in types

Kotlin compares arrays by reference, also inside of lists and maps, unless it is told to compare their contents.
How the values of a member compare is settled by its target alone, whereas its type follows lists and maps down to
their elements (`MentionsArray`).

* `Basis.ofTarget_eq_content_iff`: a value that is an array itself compares by its contents.
* `Basis.ofTarget_of_mem_slots`: all other arrays in the type of a member compare by reference.
* `plan_arrayComparison`: what that comes to for each property and variant (`ArrayComparison`).
-/

namespace SmithyKotlin

variable {model : Model} {settings : Settings} {target : Shape} {member : Member}

/-- A blob that becomes an array of bytes. -/
def Shape.IsArray (shape : Shape) : Prop := shape.type = .blob ∧ shape.isStreaming = false

instance (shape : Shape) : Decidable shape.IsArray := inferInstanceAs (Decidable (_ ∧ _))

/-! ## Types -/

namespace KotlinType

/-- An array of bytes is the type itself, or one of its arguments at any depth. -/
def MentionsArray (type : KotlinType) : Prop := builtin "ByteArray" ∈ type.leaves

theorem scalar?_eq_array_iff {shape : Shape} :
    scalar? shape = some (builtin "ByteArray") ↔ shape.IsArray := by
  rw [scalar?, Shape.IsArray]
  cases htype : shape.type with
  | blob => cases shape.isStreaming <;> simp
  | struct => cases shape.traits.contains Trait.unitType <;> simp
  | _ => simp

theorem mentionsArray_iff {shape : Shape} {type : KotlinType} (h : ofShape model shape = .ok type) :
    type.MentionsArray ↔ ∃ inner, model.Holds shape inner ∧ inner.IsArray := by
  simp only [MentionsArray, mem_leaves_iff_of_ofShape h, HoldsLeaf, scalar?_eq_array_iff]

end KotlinType

/-! ## Strategies -/

theorem Basis.ofTarget_eq_content_iff :
    ofTarget target.type target.isStreamingBlob = .content ↔ target.IsArray := by
  rw [Shape.isStreamingBlob, Shape.IsArray]
  cases target.type with
  | blob => cases target.isStreaming <;> simp [ofTarget]
  | _ => simp [ofTarget]

/-- Lists and maps compare by the `equals` of Kotlin. -/
theorem Basis.ofTarget_of_mem_slots {name : String} (h : name ∈ target.slots) (streaming : Bool) :
    ofTarget target.type streaming = .structural := by
  rcases Shape.type_of_mem_slots h with htype | htype
  · rw [htype]
    rfl
  · rw [htype]
    rfl

/-- How the values of a member compare that has the target, the type, the symbol and the strategy. -/
structure ArrayComparison (model : Model) (settings : Settings) (member : Member) (target : Shape)
    (type : KotlinType) (symbol : Symbol) (strategy : Strategy) : Prop where
  found : model.get? member.target = some target
  typed : KotlinType.ofShape model target = .ok type
  written : symbol = if member.isNonNull target then type.symbol settings
    else (type.symbol settings).asNullable target.type.isPrimitive
  /-- The type has the arrays that the target is or holds. -/
  mentions : type.MentionsArray ↔ ∃ inner, model.Holds target inner ∧ inner.IsArray
  /-- A value that is an array compares by its contents. -/
  content : strategy.basis = .content ↔ target.IsArray
  /-- Arrays inside of the value compare by reference. -/
  reference : type.MentionsArray → (strategy.basis = .structural ↔ ¬ target.IsArray)

theorem arrayComparison_of_select {symbol : Symbol} (htarget : model.get? member.target = some target)
    (hsymbol : (SymbolProvider.kotlin settings).memberSymbol model member = .ok symbol) :
    ∃ type, ArrayComparison model settings member target type symbol
      (.select target.type symbol.nullable target.isStreamingBlob) := by
  obtain ⟨found, type, hfound, htype, hwritten⟩ := SymbolProvider.memberSymbol_eq_ok_iff.mp hsymbol
  obtain rfl : found = target := Option.some.inj (hfound.symm.trans htarget)
  have hmentions := KotlinType.mentionsArray_iff htype
  have hcontent : Basis.ofTarget found.type found.isStreamingBlob = .content ↔ found.IsArray :=
    Basis.ofTarget_eq_content_iff
  refine ⟨type, htarget, htype, hwritten, hmentions, hcontent, fun hmentioned => ?_⟩
  constructor
  · intro hstructural harray
    rw [← hcontent] at harray
    exact Basis.noConfusion (harray.symm.trans hstructural)
  · intro hother
    obtain ⟨inner, hholds, harray⟩ := hmentions.mp hmentioned
    -- an array that is not the target itself stands below one of its slots
    rcases Model.holds_iff.mp hholds with rfl | ⟨name, hslot, _⟩
    · exact absurd harray hother
    · exact Basis.ofTarget_of_mem_slots hslot _

/-! ## Planned classes -/

theorem Property.arrayComparison_ofMember {error : Bool} {property : Property}
    (h : ofMember model (.kotlin settings) error member = .ok property) :
    ∃ target type, ArrayComparison model settings member target type property.symbol property.strategy := by
  obtain ⟨target, htarget, hstrategy⟩ := strategy_ofMember h
  rw [hstrategy]
  exact ⟨target, arrayComparison_of_select htarget (symbol_ofMember h)⟩

theorem Variant.arrayComparison_ofMember {variant : Variant}
    (h : ofMember model (.kotlin settings) member = .ok variant) :
    ∃ target type, ArrayComparison model settings member target type variant.symbol variant.strategy := by
  obtain ⟨target, htarget, h⟩ := bind_eq_ok_iff.mp h
  obtain ⟨symbol, hsymbol, h⟩ := bind_eq_ok_iff.mp h
  cases h
  exact ⟨target, arrayComparison_of_select (Model.find_eq_ok_iff.mp htarget) hsymbol⟩

/-- In every class of a structure and in every variant of a union a member compares an array by its contents
when its value is the array, and by reference when the array is inside of the value. -/
theorem plan_arrayComparison (model : Model) (settings : Settings) (id : ShapeId) (shape : Shape)
    (hget : model.get? id = some shape) :
    (∀ declaration, StructureDeclaration.plan model (.kotlin settings) settings id = .ok declaration →
      List.Forall₂ (fun member property => ∃ target type,
          ArrayComparison model settings member target type property.symbol property.strategy)
        shape.members declaration.properties) ∧
    ∀ declaration, UnionDeclaration.plan model (.kotlin settings) settings id = .ok declaration →
      List.Forall₂ (fun member variant => ∃ target type,
          ArrayComparison model settings member target type variant.symbol variant.strategy)
        (UnionDeclaration.sortedMembers model shape) declaration.variants := by
  constructor
  · intro declaration hplan
    have htype := StructureDeclaration.type_of_plan hget hplan
    exact (StructureDeclaration.properties_of_plan hget htype hplan).imp fun _ _ =>
      Property.arrayComparison_ofMember
  · intro declaration hplan
    exact (UnionDeclaration.variants_of_plan hget hplan).imp fun _ _ => Variant.arrayComparison_ofMember

/-! ## Blobs in a list -/

namespace ArrayComparison

/-- A blob, and a list of blobs. -/
def membersOf (container : ShapeId) : List Member :=
  [.of container "body" ⟨"smithy.api#Blob"⟩, .of container "parts" ⟨"com.example#Parts"⟩]

def parts : Shape :=
  { id := ⟨"com.example#Parts"⟩, type := .list
    members := [.of ⟨"com.example#Parts"⟩ "member" ⟨"smithy.api#Blob"⟩] }

def upload : Shape :=
  { id := ⟨"com.example#Upload"⟩, type := .struct, members := membersOf ⟨"com.example#Upload"⟩ }

def payload : Shape :=
  { id := ⟨"com.example#Payload"⟩, type := .union, members := membersOf ⟨"com.example#Payload"⟩ }

def uploadModel : Model :=
  (((Model.insert {} { id := ⟨"smithy.api#Blob"⟩, type := .blob }).insert parts).insert upload).insert payload

def uploadSettings : Settings := { packageName := "com.example", runtimeVersion := "1.0.0" }

theorem get?_upload : uploadModel.get? upload.id = some upload := by
  rw [uploadModel, Model.get?_insert, if_neg (by decide), Model.get?_insert, if_pos rfl]

theorem get?_payload : uploadModel.get? payload.id = some payload := by
  rw [uploadModel, Model.get?_insert, if_pos rfl]

theorem plan_upload : ∃ declaration,
    StructureDeclaration.plan uploadModel (.kotlin uploadSettings) uploadSettings upload.id = .ok declaration ∧
      declaration.properties.map (fun property => (property.symbol.display, property.strategy.basis)) =
        [("kotlin.ByteArray?", .content),
          ("kotlin.collections.List<kotlin.ByteArray>?", .structural)] := by
  apply map_toOption_eq_some_iff.mp
  decide +kernel

theorem plan_payload : ∃ declaration,
    UnionDeclaration.plan uploadModel (.kotlin uploadSettings) uploadSettings payload.id = .ok declaration ∧
      declaration.variants.map (fun variant => (variant.symbol.display, variant.strategy.basis)) =
        [("kotlin.ByteArray?", .content),
          ("kotlin.collections.List<kotlin.ByteArray>?", .structural)] := by
  rw [UnionDeclaration.plan_eq_of_pairwise get?_payload rfl (by decide +kernel) (by decide +kernel)]
  apply map_toOption_eq_some_iff.mp
  decide +kernel

theorem plan_arrayComparison_upload :
    (∃ declaration,
      StructureDeclaration.plan uploadModel (.kotlin uploadSettings) uploadSettings upload.id = .ok declaration ∧
      List.Forall₂ (fun member property => ∃ target type,
          ArrayComparison uploadModel uploadSettings member target type property.symbol property.strategy)
        upload.members declaration.properties) ∧
    ∃ declaration,
      UnionDeclaration.plan uploadModel (.kotlin uploadSettings) uploadSettings payload.id = .ok declaration ∧
      List.Forall₂ (fun member variant => ∃ target type,
          ArrayComparison uploadModel uploadSettings member target type variant.symbol variant.strategy)
        (UnionDeclaration.sortedMembers uploadModel payload) declaration.variants := by
  constructor
  · obtain ⟨declaration, hplan, _⟩ := plan_upload
    exact ⟨declaration, hplan,
      (plan_arrayComparison uploadModel uploadSettings upload.id upload get?_upload).1 declaration hplan⟩
  · obtain ⟨declaration, hplan, _⟩ := plan_payload
    exact ⟨declaration, hplan,
      (plan_arrayComparison uploadModel uploadSettings payload.id payload get?_payload).2 declaration hplan⟩

/-- The list of blobs compares structurally in both classes. -/
theorem not_content_parts :
    KotlinType.ofShape uploadModel parts = .ok (.list (.builtin "ByteArray") false) ∧
      (KotlinType.list (.builtin "ByteArray") false).MentionsArray ∧
      (∃ declaration,
        StructureDeclaration.plan uploadModel (.kotlin uploadSettings) uploadSettings upload.id =
          .ok declaration ∧
        declaration.properties.map (fun property => (property.symbol.display, property.strategy.basis)) =
          [("kotlin.ByteArray?", .content),
            ("kotlin.collections.List<kotlin.ByteArray>?", .structural)]) ∧
      ∃ declaration,
        UnionDeclaration.plan uploadModel (.kotlin uploadSettings) uploadSettings payload.id =
          .ok declaration ∧
        declaration.variants.map (fun variant => (variant.symbol.display, variant.strategy.basis)) =
          [("kotlin.ByteArray?", .content),
            ("kotlin.collections.List<kotlin.ByteArray>?", .structural)] := by
  refine ⟨?_, List.mem_singleton.mpr rfl, plan_upload, plan_payload⟩
  have hseen : (KotlinType.ofShape uploadModel parts).toOption.map id =
      some (.list (.builtin "ByteArray") false) := by
    decide +kernel
  obtain ⟨type, htype, rfl⟩ := map_toOption_eq_some_iff.mp hseen
  exact htype

end ArrayComparison

end SmithyKotlin
