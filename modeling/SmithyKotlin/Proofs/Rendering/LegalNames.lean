import SmithyKotlin.Proofs.Naming.Legality
import SmithyKotlin.Proofs.Rendering.ShortTypes
import SmithyKotlin.Proofs.Settings.Forms
import SmithyKotlin.Proofs.Structure.PropertyNames
import SmithyKotlin.Proofs.Union.ValueTypes

/-!
# Legal names in declarations

The class of a union or structure has names of its own, of its variants or properties, and of its accessors
(`UnionDeclaration.declaredNames`, `StructureDeclaration.declaredNames`).

* `UnionDeclaration.isLegal_declaredNames_iff`, `StructureDeclaration.isLegal_declaredNames_iff`: for a shape whose
  name and members are identifiers of the model (`Shape.IsNamed`) they are all legal exactly when a letter comes
  first in each of these behind the underscores.
* `legal_declaredNames` says so of both.

The catch-all variant and the accessors are legal in any case; names of types from elsewhere are not looked at.
-/

namespace SmithyKotlin

open Naming

/-- The shape and its members are called by identifiers. -/
structure Shape.IsNamed (shape : Shape) : Prop where
  name : SmithyIdentifier shape.id.name.toList
  members : ∀ member ∈ shape.members, SmithyIdentifier member.name.toList

instance (shape : Shape) : Decidable shape.IsNamed :=
  decidable_of_iff (SmithyIdentifier shape.id.name.toList ∧ ∀ member ∈ shape.members,
    SmithyIdentifier member.name.toList) ⟨fun h => ⟨h.1, h.2⟩, fun h => ⟨h.name, h.members⟩⟩

/-- The catch-all variant is named as it stands in the settings. -/
theorem Settings.isLegal_unknownVariantName {settings : Settings} (hcheck : settings.check = .ok ()) :
    IsLegal settings.unknownVariantName := by
  have htype := (check_eq_ok_iff_wellFormed.mp hcheck).unknownVariantName
  generalize hlist : settings.unknownVariantName.toList = text at htype
  obtain ⟨hfirst, hrest⟩ := htype
  refine .inl ⟨?_, not_mem_hardKeywords fun c hc => ?_⟩
  · rw [hlist]
    exact .word (.inl (Text.isAlpha_of_isUpper hfirst)) fun c hc => .inl (hrest c hc)
  · rw [hlist] at hc
    cases hc
    by_contra hlower
    rw [Bool.not_eq_false] at hlower
    have hcapital := Text.isUpper_of_isLower hlower
    rw [Text.isUpper_ascii (Text.ascii_of_isLower hlower), hfirst] at hcapital
    cases hcapital

variable {model : Model} {settings : Settings} {id : ShapeId} {shape : Shape}

/-- The class of a shape has a legal name when the shape has one, or when it stands for no value. -/
theorem isLegal_shapeSymbol_iff (hname : SmithyIdentifier shape.id.name.toList)
    (htype : shape.type = .struct ∨ shape.type = .union) {symbol : Symbol}
    (h : (SymbolProvider.kotlin settings).shapeSymbol model shape = .ok symbol) :
    IsLegal symbol.name ↔ shape.isUnit = true ∨ StartsWithLetter shape.id.name := by
  rw [Shape.shapeSymbol_eq htype h]
  cases shape.isUnit with
  | true =>
    have hunit : IsPlainName "Unit" := ⟨.word (.inl (by decide)) (by decide), by decide +kernel⟩
    exact iff_of_true (.inl hunit) (.inl rfl)
  | false =>
    rw [or_iff_right Bool.false_ne_true]
    exact (cased_of_smithyIdentifier hname).type

namespace UnionDeclaration

/-- The names that the class of a union declares. -/
def declaredNames (declaration : UnionDeclaration) : List String :=
  declaration.symbol.name :: (declaration.variantNames ++ declaration.accessorNames)

theorem isLegal_declaredNames_iff (hcheck : settings.check = .ok ()) (hget : model.get? id = some shape)
    (hnamed : shape.IsNamed) {declaration : UnionDeclaration}
    (hplan : plan model (.kotlin settings) settings id = .ok declaration) :
    (∀ name ∈ declaration.declaredNames, IsLegal name) ↔
      StartsWithLetter shape.id.name ∧ ∀ member ∈ shape.qualifying model, StartsWithLetter member.name := by
  have htype := type_of_plan hget hplan
  have hsymbol := (symbol_of_plan hget htype hplan).2
  have hunit : shape.isUnit = false := by
    rw [Shape.isUnit, htype]
    rfl
  have hperm := sortedMembers_perm model shape
  have hcased (member : Member) (hmem : member ∈ shape.qualifying model) : Cased member.name :=
    cased_of_smithyIdentifier (hnamed.members member (List.mem_of_mem_filter hmem))
  have hvariants : (∀ name ∈ declaration.variants.map Variant.name, IsLegal name) ↔
      ∀ member ∈ shape.qualifying model, StartsWithLetter member.name := by
    rw [← (names_of_plan hget hplan).1, List.forall_mem_map]
    simp only [hperm.mem_iff]
    exact forall₂_congr fun member hmem => (hcased member hmem).type
  have haccessors : ∀ name ∈ declaration.accessorNames, IsLegal name := by
    intro name hname
    rw [accessorNames_eq, ← (names_of_plan hget hplan).1, accessorsOf, List.flatMap_map] at hname
    obtain ⟨member, hmem, hname⟩ := List.mem_flatMap.mp hname
    have hlegal := (hcased member (hperm.mem_iff.mp hmem)).accessors
    rcases List.mem_pair.mp hname with rfl | rfl
    · exact hlegal.1
    · exact hlegal.2
  rw [declaredNames, List.forall_mem_cons, List.forall_mem_append, variantNames, List.forall_mem_append,
    and_iff_left haccessors, List.forall_mem_singleton, unknownName_of_plan hplan,
    and_iff_left (Settings.isLegal_unknownVariantName hcheck), hvariants,
    isLegal_shapeSymbol_iff hnamed.name (.inr htype) hsymbol, hunit, or_iff_right Bool.false_ne_true]

end UnionDeclaration

namespace StructureDeclaration

/-- The names that the class of a structure declares. -/
def declaredNames (declaration : StructureDeclaration) : List String :=
  declaration.symbol.name :: declaration.propertyNames

theorem isLegal_declaredNames_iff (hget : model.get? id = some shape) (hnamed : shape.IsNamed)
    (htype : shape.type = .struct) {declaration : StructureDeclaration}
    (hplan : plan model (.kotlin settings) settings id = .ok declaration) :
    (∀ name ∈ declaration.declaredNames, IsLegal name) ↔
      (shape.isUnit = true ∨ StartsWithLetter shape.id.name) ∧
        ∀ member ∈ shape.members, StartsWithLetter member.name := by
  obtain ⟨_, symbol, _, hsymbol, rfl⟩ := (plan_eq_ok_iff hget htype).mp hplan
  have hproperties : (∀ member ∈ shape.members, IsLegal (propertyName member.name)) ↔
      ∀ member ∈ shape.members, StartsWithLetter member.name :=
    forall₂_congr fun member hmem => (cased_of_smithyIdentifier (hnamed.members member hmem)).property
  rw [declaredNames, List.forall_mem_cons, propertyNames_of_plan hget htype hplan, List.forall_mem_map, hproperties,
    isLegal_shapeSymbol_iff hnamed.name (.inl htype) hsymbol]

end StructureDeclaration

/-- Casing an identifier of the model gives a legal name exactly when a letter comes first in it behind the
underscores.  So the names that a declaration has are legal exactly when this is so for the names of its shape and
members. -/
theorem legal_declaredNames (model : Model) (settings : Settings) (id : ShapeId) (shape : Shape)
    (hcheck : settings.check = .ok ()) (hget : model.get? id = some shape) (hnamed : shape.IsNamed) :
    (∀ name : String, SmithyIdentifier name.toList → Cased name) ∧
      (∀ declaration, UnionDeclaration.plan model (.kotlin settings) settings id = .ok declaration →
        ((∀ name ∈ declaration.declaredNames, IsLegal name) ↔
          StartsWithLetter shape.id.name ∧ ∀ member ∈ shape.qualifying model, StartsWithLetter member.name)) ∧
      ∀ declaration, StructureDeclaration.plan model (.kotlin settings) settings id = .ok declaration →
        ((∀ name ∈ declaration.declaredNames, IsLegal name) ↔
          (shape.isUnit = true ∨ StartsWithLetter shape.id.name) ∧
            ∀ member ∈ shape.members, StartsWithLetter member.name) := by
  refine ⟨fun _ => cased_of_smithyIdentifier, fun declaration hplan => ?_, fun declaration hplan => ?_⟩
  · exact UnionDeclaration.isLegal_declaredNames_iff hcheck hget hnamed hplan
  · have htype := StructureDeclaration.type_of_plan hget hplan
    exact StructureDeclaration.isLegal_declaredNames_iff hget hnamed htype hplan

/-! ## Names with underscores in front -/

/-- A union with a name in capitals, a keyword and a name behind an underscore. -/
def signal : Shape :=
  { id := ⟨"com.example#_signal"⟩, type := .union
    members := [.of ⟨"com.example#_signal"⟩ "HTTP_2xx" ⟨"smithy.api#String"⟩,
      .of ⟨"com.example#_signal"⟩ "_raw" ⟨"smithy.api#String"⟩,
      .of ⟨"com.example#_signal"⟩ "is" ⟨"smithy.api#String"⟩] }

/-- A structure with a digit behind the underscore of a member. -/
def rank : Shape :=
  { id := ⟨"com.example#Rank"⟩, type := .struct
    members := [.of ⟨"com.example#Rank"⟩ "_1" ⟨"smithy.api#String"⟩] }

def signalModel : Model :=
  [{ id := ⟨"smithy.api#String"⟩, type := .string }, rank, signal].foldl Model.insert {}

def signalSettings : Settings := { packageName := "com.example", runtimeVersion := "1.0.0" }

theorem get?_signal : signalModel.get? signal.id = some signal := by
  simp only [signalModel, List.foldl_cons, List.foldl_nil]
  rw [Model.get?_insert, if_pos rfl]

theorem legal_declaredNames_signal :
    signalSettings.check = .ok () ∧ signalModel.get? signal.id = some signal ∧ signal.IsNamed ∧
      ∃ declaration,
        UnionDeclaration.plan signalModel (.kotlin signalSettings) signalSettings signal.id = .ok declaration ∧
        declaration.declaredNames = ["Signal", "HTTP2xx", "Raw", "Is", "SdkUnknown", "asHTTP2xx", "asHTTP2xxOrNull",
          "asRaw", "asRawOrNull", "asIs", "asIsOrNull"] ∧
        ∀ name ∈ declaration.declaredNames, IsLegal name := by
  have hcheck : signalSettings.check = .ok () := by
    decide +kernel
  have hnamed : signal.IsNamed := by
    decide +kernel
  have hseen : (UnionDeclaration.plan signalModel (.kotlin signalSettings) signalSettings signal.id).toOption.map
      UnionDeclaration.declaredNames = some ["Signal", "HTTP2xx", "Raw", "Is", "SdkUnknown", "asHTTP2xx",
        "asHTTP2xxOrNull", "asRaw", "asRawOrNull", "asIs", "asIsOrNull"] := by
    rw [UnionDeclaration.plan_eq_of_pairwise get?_signal rfl (by decide +kernel) (by decide +kernel)]
    decide +kernel
  obtain ⟨declaration, hplan, hnames⟩ := map_toOption_eq_some_iff.mp hseen
  have hletters : StartsWithLetter signal.id.name ∧
      ∀ member ∈ signal.qualifying signalModel, StartsWithLetter member.name := by
    decide +kernel
  exact ⟨hcheck, get?_signal, hnamed, declaration, hplan, hnames,
    ((legal_declaredNames signalModel signalSettings signal.id signal hcheck get?_signal hnamed).2.1 declaration
      hplan).mpr hletters⟩

/-- A class with a property that is called by a digit. -/
theorem not_isLegal_rank :
    rank.IsNamed ∧ pascalCase "_1" = "1" ∧ propertyName "_1" = "1" ∧ ¬ IsLegal "1" ∧ ∃ declaration,
      StructureDeclaration.plan signalModel (.kotlin signalSettings) signalSettings rank.id = .ok declaration ∧
        declaration.declaredNames = ["Rank", "1"] ∧
        declaration.header = "public class Rank(\n    public val 1: kotlin.String? = null,\n) \x7b" := by
  have hdigit : ∀ c ∈ "1".toList, c.isAlphanum = true := by
    decide
  have hillegal : ¬ IsLegal "1" := by
    rw [isLegal_iff hdigit]
    exact fun h => absurd ((identifierText_cons_iff hdigit).mp h.identifier) (by decide)
  have hplanned : (StructureDeclaration.plan signalModel (.kotlin signalSettings) signalSettings rank.id).toOption.map
      (fun declaration => (declaration.declaredNames, declaration.header)) =
        some (["Rank", "1"], "public class Rank(\n    public val 1: kotlin.String? = null,\n) \x7b") := by
    decide +kernel
  obtain ⟨declaration, hplan, hseen⟩ := map_toOption_eq_some_iff.mp hplanned
  obtain ⟨hnames, hheader⟩ := Prod.mk.inj hseen
  exact ⟨by decide +kernel, by decide +kernel, by decide +kernel, hillegal, declaration, hplan, hnames, hheader⟩

end SmithyKotlin
