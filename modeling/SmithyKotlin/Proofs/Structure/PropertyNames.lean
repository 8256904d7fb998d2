import SmithyKotlin.Proofs.Model.WellKeyed
import SmithyKotlin.Proofs.Naming.Casing
import SmithyKotlin.Proofs.Structure.Planning
import SmithyKotlin.Proofs.Union.Names
import SmithyKotlin.Structure.Emission

/-!
# The names of properties

The constructor of a structure has a property for each member.

* `StructureDeclaration.propertyNames_of_plan`: their names are the cased names of the members, in order.
* `StructureDeclaration.plan_namedAfter`: no plan looks at these names, so they are distinct just when casing keeps
  the names of the members apart (`NamedAfter`).  The check that unions make of their variants would be enough to
  keep them apart.
-/

namespace SmithyKotlin.StructureDeclaration

variable {model : Model} {symbols : SymbolProvider} {settings : Settings} {id : ShapeId}
  {shape : Shape}

/-- The names of the constructor's parameters. -/
def propertyNames (declaration : StructureDeclaration) : List String :=
  declaration.properties.map Property.name

/-- The names of the properties come from those of the members, and nothing else keeps them apart. -/
structure NamedAfter (shape : Shape) (declaration : StructureDeclaration) : Prop where
  names : declaration.propertyNames =
    shape.members.map fun member => Naming.propertyName member.name
  distinct : declaration.propertyNames.Nodup ↔
    shape.members.Pairwise fun a b => ¬ Naming.SameProperty a.name b.name
  /-- What unions ask of the names of their members keeps properties apart, too. -/
  checked : (∀ member ∈ shape.members, Naming.IsIdentifier member.name) →
    (shape.members.Pairwise fun a b => UnionDeclaration.sameVariant a.name b.name = false) →
      declaration.propertyNames.Nodup

theorem map_name_of_forall₂ {error : Bool} {members : List Member} {properties : List Property}
    (h : List.Forall₂ (fun member property =>
      Property.ofMember model symbols error member = .ok property) members properties) :
    properties.map Property.name = members.map fun member => Naming.propertyName member.name := by
  induction h with
  | nil => rfl
  | cons hproperty _ ih =>
    rw [List.map_cons, List.map_cons, ih, Property.name, Property.member_ofMember hproperty]

theorem propertyNames_of_plan (hget : model.get? id = some shape) (htype : shape.type = .struct)
    {declaration : StructureDeclaration}
    (hplan : plan model symbols settings id = .ok declaration) :
    declaration.propertyNames = shape.members.map fun member => Naming.propertyName member.name :=
  map_name_of_forall₂ (properties_of_plan hget htype hplan)

/-- Whether a structure can be planned does not depend on the names of its members.  Of every plan it can be
told from these names whether the constructor has two parameters of one name. -/
theorem plan_namedAfter (model : Model) (symbols : SymbolProvider) (settings : Settings)
    (id : ShapeId) (shape : Shape) (hget : model.get? id = some shape)
    (htype : shape.type = .struct) :
    ((∃ declaration, plan model symbols settings id = .ok declaration) ↔
      (∀ member ∈ shape.members, (∃ target, model.get? member.target = some target) ∧
        ∃ symbol, symbols.memberSymbol model member = .ok symbol) ∧
      ∃ symbol, symbols.shapeSymbol model shape = .ok symbol) ∧
    ∀ declaration, plan model symbols settings id = .ok declaration →
      declaration.NamedAfter shape := by
  refine ⟨exists_plan_iff hget htype, fun declaration hplan => ?_⟩
  have hnames := propertyNames_of_plan hget htype hplan
  have hdistinct : declaration.propertyNames.Nodup ↔
      shape.members.Pairwise fun a b => ¬ Naming.SameProperty a.name b.name := by
    rw [hnames, List.nodup_iff_pairwise_ne, List.pairwise_map]
    simp only [ne_eq, Naming.propertyName_eq_iff]
  refine ⟨hnames, hdistinct, fun hidentifiers hvariants => ?_⟩
  rw [hdistinct]
  refine hvariants.imp_of_mem fun {a b} ha hb hdiffer hsame => ?_
  have hcased := hsame.same_pascalCase (hidentifiers a ha) (hidentifiers b hb)
  rw [← UnionDeclaration.sameVariant, hdiffer] at hcased
  cases hcased

/-- Two members whose names casing makes one. -/
def pair : Shape :=
  { id := ⟨"com.example#Pair"⟩, type := .struct
    members := [.of ⟨"com.example#Pair"⟩ "fooBar" ⟨"smithy.api#String"⟩,
      .of ⟨"com.example#Pair"⟩ "foo_bar" ⟨"smithy.api#String"⟩] }

/-- Two members whose names stay apart, one of which is a keyword. -/
def span : Shape :=
  { id := ⟨"com.example#Span"⟩, type := .struct
    members := [.of ⟨"com.example#Span"⟩ "lower_bound" ⟨"smithy.api#String"⟩,
      .of ⟨"com.example#Span"⟩ "in" ⟨"smithy.api#String"⟩] }

def pairModel : Model :=
  ((Model.insert {} { id := ⟨"smithy.api#String"⟩, type := .string }).insert pair).insert span

def pairSettings : Settings := { packageName := "com.example", runtimeVersion := "1.0.0" }

theorem plan_namedAfter_span :
    pairModel.get? span.id = some span ∧ span.type = .struct ∧
      ∃ declaration, plan pairModel (.kotlin pairSettings) pairSettings span.id =
          .ok declaration ∧
        declaration.NamedAfter span ∧ declaration.propertyNames = ["lowerBound", "`in`"] := by
  have hget : pairModel.get? span.id = some span := by
    rw [pairModel, Model.get?_insert, if_pos rfl]
  have hplanned : (plan pairModel (.kotlin pairSettings) pairSettings span.id).toOption.map
      propertyNames = some ["lowerBound", "`in`"] := by
    decide +kernel
  obtain ⟨declaration, hplan, hnames⟩ := map_toOption_eq_some_iff.mp hplanned
  exact ⟨hget, rfl, declaration, hplan,
    (plan_namedAfter pairModel (.kotlin pairSettings) pairSettings span.id span hget rfl).2
      declaration hplan, hnames⟩

/-- A plan in which the constructor has one parameter twice. -/
theorem not_distinct_pair :
    pairModel.get? pair.id = some pair ∧ (pair.members.map (·.name)).Nodup ∧
      ∃ declaration, plan pairModel (.kotlin pairSettings) pairSettings pair.id =
          .ok declaration ∧
        ¬ declaration.propertyNames.Nodup ∧
        declaration.header = "public class Pair(\n    public val fooBar: kotlin.String? = null,\n"
          ++ "    public val fooBar: kotlin.String? = null,\n) \x7b" := by
  have hget : pairModel.get? pair.id = some pair := by
    rw [pairModel, Model.get?_insert, if_neg (by decide), Model.get?_insert, if_pos rfl]
  have hplanned : (plan pairModel (.kotlin pairSettings) pairSettings pair.id).toOption.map
      (fun declaration => (declaration.propertyNames, declaration.header)) =
        some (["fooBar", "fooBar"],
          "public class Pair(\n    public val fooBar: kotlin.String? = null,\n"
            ++ "    public val fooBar: kotlin.String? = null,\n) \x7b") := by
    decide +kernel
  obtain ⟨declaration, hplan, hseen⟩ := map_toOption_eq_some_iff.mp hplanned
  obtain ⟨hnames, hheader⟩ := Prod.mk.inj hseen
  refine ⟨hget, by decide, declaration, hplan, ?_, hheader⟩
  rw [hnames]
  decide

end SmithyKotlin.StructureDeclaration
