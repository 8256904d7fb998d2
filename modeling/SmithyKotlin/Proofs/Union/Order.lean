import SmithyKotlin.Model.Prelude
import SmithyKotlin.Proofs.Symbol.Resemblance
import SmithyKotlin.Proofs.Union.Planning
import SmithyKotlin.Union.Emission

/-!
# The order of the members

A union may declare its members in any order.

* `UnionDeclaration.plan_replace`: as long as their names differ the plan is the same, also where members lead back
  to the union.
* `UnionDeclaration.plan_eq_error_of_missing`: only the failure for a missing target may differ, since it names the
  first one in the order of the declaration.
* `UnionDeclaration.plan_memberOrder`: so what is written for the union is the same, or both orders fail
  (`SamePlan`).
-/

namespace SmithyKotlin

/-! ## Unions with other members -/

/-- Types cannot tell whether the members of a union have been exchanged. -/
theorem Model.matching_replace {model : Model} {id : ShapeId} {union : Shape}
    (hget : model.get? id = some union) (htype : union.type = .union) (members : List Member) :
    KotlinType.Matching (fun _ => True) model (model.replace id { union with members }) := by
  refine ⟨fun _ _ _ _ _ _ _ _ => trivial, fun query _ => ?_⟩
  rw [get?_replace]
  by_cases hquery : id = query
  · rw [if_pos hquery, ← hquery, hget]
    exact .some (Shape.resembles_withMembers htype members)
  · rw [if_neg hquery]
    exact optionRel_refl _

section Matching

variable {ids : ShapeId → Prop} {a b : Model} (hmodels : KotlinType.Matching ids a b)
  {member : Member} (hid : ids member.target)

include hmodels hid

theorem Shape.qualifies_matching (union : Shape) : union.qualifies b member = union.qualifies a member := by
  rw [qualifies, qualifies]
  have hlike := hmodels.like _ hid
  generalize a.get? member.target = found at hlike ⊢
  generalize b.get? member.target = found' at hlike ⊢
  cases hlike with
  | none => rfl
  | some hresembles => rw [Option.any_some, Option.any_some, hresembles.type, hresembles.traits]

theorem Variant.ofMember_matching (settings : Settings) :
    ofMember a (.kotlin settings) member = ofMember b (.kotlin settings) member := by
  have hsymbol : (SymbolProvider.kotlin settings).memberSymbol a member =
      (SymbolProvider.kotlin settings).memberSymbol b member :=
    SymbolProvider.kotlinMember_matching hmodels settings hid
  rw [ofMember, ofMember, hsymbol]
  rcases Model.find_matching hmodels hid with
    ⟨hfind, hother⟩ | ⟨target, target', hfind, hother, hlike, _⟩
  · rw [hfind, hother, error_bind]
  · have hstreaming : target'.isStreamingBlob = target.isStreamingBlob := by
      rw [Shape.isStreamingBlob, Shape.isStreamingBlob, Shape.isStreaming, Shape.isStreaming,
        hlike.type, hlike.traits]
    rw [hfind, hother, ok_bind, ok_bind, hlike.id, hlike.type, hlike.traits, hstreaming]

end Matching

namespace UnionDeclaration

section Reordered

variable {model : Model} {id : ShapeId} {union : Shape} {members : List Member}
  (hget : model.get? id = some union) (htype : union.type = .union)

include hget htype

theorem variantMembers_replace (hnames : (union.members.map (·.name)).Nodup)
    (hperm : members.Perm union.members)
    (htargets : ∀ member ∈ union.members, ∃ target, model.get? member.target = some target) :
    ({ union with members } : Shape).variantMembers (model.replace id { union with members }) =
      union.variantMembers model := by
  have hmodels := Model.matching_replace hget htype members
  have htargets' : ∀ member ∈ members,
      ∃ target, (model.replace id { union with members }).get? member.target = some target := by
    intro member hmem
    have htarget := htargets member (hperm.mem_iff.mp hmem)
    rw [← Option.isSome_iff_exists] at htarget ⊢
    rw [isSome_of_rel (hmodels.like _ trivial), htarget]
  have hqualifies : union.qualifies (model.replace id { union with members }) =
      union.qualifies model := by
    funext member
    exact Shape.qualifies_matching hmodels trivial union
  have hqualifying : (({ union with members } : Shape).qualifying
      (model.replace id { union with members })).Perm (union.qualifying model) := by
    show (members.filter (union.qualifies _)).Perm (union.members.filter (union.qualifies model))
    rw [hqualifies]
    exact hperm.filter _
  have hkept : ((union.qualifying model).map (·.name)).Nodup :=
    hnames.sublist (List.filter_sublist.map _)
  have hvariants := Shape.variantMembers_eq_ok
    (show ({ union with members } : Shape).type = .union from htype) htargets'
  rw [Shape.variantMembers_eq_ok htype htargets, hvariants, Shape.mergeSort_eq_of_perm hkept hqualifying]

theorem plan_replace (provided settings : Settings) (hnames : (union.members.map (·.name)).Nodup)
    (hperm : members.Perm union.members)
    (htargets : ∀ member ∈ union.members, ∃ target, model.get? member.target = some target) :
    plan (model.replace id { union with members }) (.kotlin provided) settings id =
      plan model (.kotlin provided) settings id := by
  have hmodels := Model.matching_replace hget htype members
  have hfind := Model.find_eq_ok_iff.mpr hget
  have hreplaced : (model.replace id { union with members }).find id =
      .ok { union with members } := by
    rw [Model.find_eq_ok_iff, Model.get?_replace, if_pos rfl]
  have hvariants : Variant.ofMember (model.replace id { union with members }) (.kotlin provided) =
      Variant.ofMember model (.kotlin provided) := by
    funext member
    exact (Variant.ofMember_matching hmodels trivial provided).symm
  have hsymbol : (SymbolProvider.kotlin provided).shapeSymbol
      (model.replace id { union with members }) { union with members } =
        (SymbolProvider.kotlin provided).shapeSymbol model union :=
    (SymbolProvider.kotlinShape_matching hmodels provided
      (Shape.resembles_withMembers htype members) fun _ _ _ _ => trivial).symm
  rw [plan, plan, hfind, hreplaced, ok_bind, ok_bind, hvariants, hsymbol,
    variantMembers_replace hget htype hnames hperm htargets]

end Reordered

/-- Without one of its targets a union cannot be planned. -/
theorem plan_eq_error_of_missing {model : Model} {id : ShapeId} {union : Shape}
    (hget : model.get? id = some union)
    (hmissing : ¬ ∀ member ∈ union.members, ∃ target, model.get? member.target = some target)
    (symbols : SymbolProvider) (settings : Settings) :
    ∃ error, plan model symbols settings id = .error error := by
  cases hplan : plan model symbols settings id with
  | error error => exact ⟨error, rfl⟩
  | ok declaration => exact absurd (targets_of_plan hget hplan) hmissing

/-- Two plans come to the same: both give one declaration, or both fail; and whatever they give, new writers
write the same for it and note the same needs. -/
structure SamePlan (first second : Except CodegenError UnionDeclaration) : Prop where
  outcome : (∃ declaration, first = .ok declaration ∧ second = .ok declaration) ∨
    ∃ error error', first = .error error ∧ second = .error error'
  written : ∀ declaration declaration', first = .ok declaration → second = .ok declaration' →
    ∀ package, let writer := ({ package } : Writer).run declaration.emit
      let writer' := ({ package } : Writer).run declaration'.emit
      writer.body = writer'.body ∧ writer.importPaths = writer'.importPaths ∧
        writer.dependencies = writer'.dependencies

theorem samePlan_of_outcome {first second : Except CodegenError UnionDeclaration}
    (houtcome : (∃ declaration, first = .ok declaration ∧ second = .ok declaration) ∨
      ∃ error error', first = .error error ∧ second = .error error') : SamePlan first second := by
  refine ⟨houtcome, fun declaration declaration' hfirst hsecond package => ?_⟩
  rcases houtcome with ⟨common, hfirst', hsecond'⟩ | ⟨error, _, herror, _⟩
  · obtain rfl := Except.ok.inj (hfirst.symm.trans hfirst')
    obtain rfl := Except.ok.inj (hsecond.symm.trans hsecond')
    exact ⟨rfl, rfl, rfl⟩
  · rw [hfirst] at herror
    cases herror

/-- The order in which a union declares its members shows neither in its plan nor in what is written for
it.  With all targets in the model it does not show in a failure either. -/
theorem plan_memberOrder (model : Model) (provided settings : Settings) (id : ShapeId)
    (union : Shape) (members : List Member) (hget : model.get? id = some union)
    (hnames : (union.members.map (·.name)).Nodup) (hperm : members.Perm union.members) :
    let reordered := model.replace id { union with members }
    SamePlan (plan model (.kotlin provided) settings id)
        (plan reordered (.kotlin provided) settings id) ∧
      ((∀ member ∈ union.members, ∃ target, model.get? member.target = some target) →
        plan model (.kotlin provided) settings id =
          plan reordered (.kotlin provided) settings id) := by
  intro reordered
  have hgetReordered : reordered.get? id = some { union with members } := by
    rw [Model.get?_replace, if_pos rfl]
  by_cases htype : union.type = .union
  · by_cases htargets : ∀ member ∈ union.members, ∃ target, model.get? member.target = some target
    · have hplans := plan_replace hget htype provided settings hnames hperm htargets
      refine ⟨samePlan_of_outcome ?_, fun _ => hplans.symm⟩
      rw [hplans]
      cases plan model (.kotlin provided) settings id with
      | ok declaration => exact .inl ⟨declaration, rfl, rfl⟩
      | error error => exact .inr ⟨error, error, rfl, rfl⟩
    · have hmissing : ¬ ∀ member ∈ members,
          ∃ target, reordered.get? member.target = some target := by
        intro hall
        refine htargets fun member hmem => ?_
        have hfound := hall member (hperm.mem_iff.mpr hmem)
        have hlike := (Model.matching_replace hget htype members).like member.target trivial
        rw [← Option.isSome_iff_exists] at hfound ⊢
        rw [← isSome_of_rel hlike, hfound]
      obtain ⟨error, herror⟩ := plan_eq_error_of_missing hget htargets (.kotlin provided) settings
      obtain ⟨error', herror'⟩ :=
        plan_eq_error_of_missing hgetReordered hmissing (.kotlin provided) settings
      exact ⟨samePlan_of_outcome (.inr ⟨error, error', herror, herror'⟩),
        fun hall => absurd hall htargets⟩
  · -- what is no union fails before its members are looked at
    have hother (shape : Shape) (found : Model) (hfound : found.get? id = some shape)
        (hshape : shape.type = union.type) :
        plan found (.kotlin provided) settings id = .error (.otherType id union.type .union) := by
      rw [plan, Model.find_eq_ok_iff.mpr hfound, ok_bind, if_pos (hshape ▸ htype), hshape]
      rfl
    have hfirst := hother union model hget rfl
    have hsecond := hother { union with members } reordered hgetReordered rfl
    exact ⟨samePlan_of_outcome (.inr ⟨_, _, hfirst, hsecond⟩), fun _ => hfirst.trans hsecond.symm⟩

/-- An expression is a literal or a sum of expressions. -/
def expression : Shape :=
  { id := ⟨"com.a#Expression"⟩, type := .union
    members := [.of ⟨"com.a#Expression"⟩ "literal" ⟨"smithy.api#Integer"⟩,
      .of ⟨"com.a#Expression"⟩ "sum" ⟨"com.a#Operands"⟩] }

def operands : Shape :=
  { id := ⟨"com.a#Operands"⟩, type := .list
    members := [.of ⟨"com.a#Operands"⟩ "member" ⟨"com.a#Expression"⟩] }

def expressionModel : Model := (Prelude.model.insert operands).insert expression

def expressionSettings : Settings := { packageName := "com.a", runtimeVersion := "1.0.0" }

/-- The members the other way round give the same plan, though one of them leads back to the union. -/
theorem plan_memberOrder_expression :
    expressionModel.get? expression.id = some expression ∧
      (expression.members.map (·.name)).Nodup ∧
      expression.members.reverse.Perm expression.members ∧
      let reordered := expressionModel.replace expression.id
        { expression with members := expression.members.reverse }
      let plans (model : Model) :=
        plan model (.kotlin expressionSettings) expressionSettings expression.id
      (plans expressionModel).isOk = true ∧ SamePlan (plans expressionModel) (plans reordered) ∧
        plans expressionModel = plans reordered := by
  have hget : expressionModel.get? expression.id = some expression := by
    rw [expressionModel, Model.get?_insert, if_pos rfl]
  have hnames : (expression.members.map (·.name)).Nodup := by decide
  have hperm : expression.members.reverse.Perm expression.members := List.reverse_perm _
  have htargets : ∀ member ∈ expression.members,
      ∃ target, expressionModel.get? member.target = some target := by
    simp only [← Option.isSome_iff_exists]
    decide +kernel
  have hok : (plan expressionModel (.kotlin expressionSettings) expressionSettings
      expression.id).isOk = true := by
    rw [plan_eq_of_targets hget rfl htargets, sortedMembers_of_pairwise (by decide +kernel)]
    decide +kernel
  obtain ⟨hsame, hequal⟩ := plan_memberOrder expressionModel expressionSettings expressionSettings
    expression.id expression expression.members.reverse hget hnames hperm
  exact ⟨hget, hnames, hperm, hok, hsame, hequal htargets⟩

end UnionDeclaration

end SmithyKotlin
