import SmithyKotlin.Proofs.Document.ParsedModel
import SmithyKotlin.Proofs.Model.Address
import SmithyKotlin.Proofs.Model.Changes

/-!
# The ids of shapes and members

A document is read when there is something on both sides of the first `#` of an id, whatever else stands there.  So
a shape can have the id of a member of another shape, and the id of a member need not lead back to it.

* `Model.IdsTell`: the ids of a model tell what they belong to, and traits for the id of a member reach this member
  alone.
* `Model.DollarFree`: no `$` in the id of a shape.
* `Document.toModel_idsTell`: the one holds of a model from a document exactly when the other one does.
-/

namespace SmithyKotlin

namespace Model

/-- The ids of a model tell what they belong to: shapes have ids of shapes, a member has an id of a member of
its shape, which no other member has, and traits for this id are merged with those of the member alone. -/
structure IdsTell (model : Model) : Prop where
  shapes : ∀ id shape, model.get? id = some shape → shape.id.IsRoot
  members : ∀ id shape, model.get? id = some shape →
    ∀ member ∈ shape.members, member.id.IsMember shape.id member.name
  unique : ∀ id shape id' shape', model.get? id = some shape → model.get? id' = some shape' →
    ∀ member ∈ shape.members, ∀ member' ∈ shape'.members, member.id = member'.id →
      id = id' ∧ member = member'
  reached : ∀ id shape, model.get? id = some shape → ∀ member ∈ shape.members, ∀ traits,
    ∃ before behind, shape.members = before ++ member :: behind ∧
      model.applyTraits member.id traits = .ok (model.replace id { shape with
        members := before ++ { member with traits := member.traits.merge traits } :: behind })

/-- No id of a shape has a `$` behind its `#`, and only ids of shapes without members have one before it. -/
def DollarFree (model : Model) : Prop :=
  ∀ id shape, model.get? id = some shape → '$' ∉ id.localPart.toList ∧
    ∀ member ∈ shape.members, ∀ scope ∈ id.namespace?, '$' ∉ scope.toList

theorem dollarFree_iff {model : Model} : model.DollarFree ↔ ∀ entry ∈ model.shapes.entries,
    '$' ∉ (⟨entry.1⟩ : ShapeId).localPart.toList ∧
      ∀ member ∈ entry.2.members, ∀ scope ∈ (⟨entry.1⟩ : ShapeId).namespace?,
        '$' ∉ scope.toList := by
  constructor
  · intro hfree entry hmem
    exact hfree ⟨entry.1⟩ entry.2 (SortedMap.get?_eq_some_iff.mpr hmem)
  · intro hall id shape hget
    exact hall (id.text, shape) (SortedMap.get?_eq_some_iff.mp hget)

instance (model : Model) : Decidable model.DollarFree := decidable_of_iff _ dollarFree_iff.symm

/-- The ids of all members, shape by shape. -/
def memberIds (model : Model) : List ShapeId :=
  model.shapes.values.flatMap fun shape => shape.members.map (·.id)

section Converted

variable {model : Model}
  (hstands : ∀ id shape, model.get? id = some shape → shape.StandsUnder id)

include hstands

theorem isMember_iff {id : ShapeId} {shape : Shape} (hget : model.get? id = some shape)
    {member : Member} (hmem : member ∈ shape.members) :
    member.id.IsMember id member.name ↔ ∀ scope ∈ id.namespace?, '$' ∉ scope.toList := by
  have hshape := hstands id shape hget
  rw [hshape.members member hmem]
  exact ShapeId.isMember_withMember_iff hshape.absolute member.name

section DollarFree

variable (hfree : model.DollarFree) {id : ShapeId} {shape : Shape} (hget : model.get? id = some shape)
  {member : Member} (hmem : member ∈ shape.members)

include hfree hget hmem

theorem DollarFree.isMember : member.id.IsMember id member.name :=
  (isMember_iff hstands hget hmem).mpr ((hfree id shape hget).2 member hmem)

theorem DollarFree.container_eq : member.id.container = id := by
  have habsolute := (hstands id shape hget).absolute
  have hroot := (ShapeId.isRoot_iff habsolute).mpr (hfree id shape hget).1
  exact (hfree.isMember hstands hget hmem).container_eq habsolute hroot

/-- Where names differ, the member that is found by its name is the member itself. -/
theorem DollarFree.reached (traits : TraitMap) :
    ∃ before behind, shape.members = before ++ member :: behind ∧
      model.applyTraits member.id traits = .ok (model.replace id { shape with
        members := before ++ { member with traits := member.traits.merge traits } :: behind }) := by
  obtain ⟨before, found, behind, hmembers, hname, _, hupdate⟩ :=
    Shape.update_of_mem (·.merge traits) (List.mem_map_of_mem hmem)
  have hfound : found ∈ shape.members := by
    rw [hmembers]
    exact List.mem_append_right _ List.mem_cons_self
  obtain rfl : found = member :=
    List.inj_on_of_nodup_map (hstands id shape hget).names hfound hmem hname
  refine ⟨before, behind, hmembers, ?_⟩
  rw [applyTraits_eq, hfree.container_eq hstands hget hmem, (hfree.isMember hstands hget hmem).member,
    hget, Option.bind_some, Shape.addTraits?, Shape.mapMember?, hupdate]
  rfl

/-- The id of a member leads back to the shape, and there its name to the member. -/
theorem DollarFree.unique {id' : ShapeId} {shape' : Shape} (hget' : model.get? id' = some shape')
    {member' : Member} (hmem' : member' ∈ shape'.members) (hsame : member.id = member'.id) :
    id = id' ∧ member = member' := by
  obtain rfl : id = id' := by
    rw [← hfree.container_eq hstands hget hmem, hsame, hfree.container_eq hstands hget' hmem']
  obtain rfl : shape = shape' := Option.some.inj (hget.symm.trans hget')
  have hname : some member.name = some member'.name := by
    rw [← (hfree.isMember hstands hget hmem).member, hsame,
      (hfree.isMember hstands hget hmem').member]
  exact ⟨rfl, List.inj_on_of_nodup_map (hstands id shape hget).names hmem hmem' (Option.some.inj hname)⟩

end DollarFree

theorem idsTell_iff : model.IdsTell ↔ model.DollarFree := by
  constructor
  · intro htell id shape hget
    have hshape := hstands id shape hget
    have hroot := htell.shapes id shape hget
    rw [hshape.id_eq] at hroot
    refine ⟨(ShapeId.isRoot_iff hshape.absolute).mp hroot, fun member hmem => ?_⟩
    have hmember := htell.members id shape hget member hmem
    rw [hshape.id_eq] at hmember
    exact (isMember_iff hstands hget hmem).mp hmember
  · intro hfree
    refine ⟨fun id shape hget => ?_, fun id shape hget member hmem => ?_,
      fun _ _ _ _ hget hget' member hmem member' hmem' => hfree.unique hstands hget hmem hget' hmem',
      fun _ _ hget member hmem => hfree.reached hstands hget hmem⟩
    · rw [(hstands id shape hget).id_eq]
      exact (ShapeId.isRoot_iff (hstands id shape hget).absolute).mpr (hfree id shape hget).1
    · rw [(hstands id shape hget).id_eq]
      exact hfree.isMember hstands hget hmem

end Converted

end Model

namespace Document

/-- Every shape of a converted document stands under its own id, which has a namespace; it is the id of a shape
unless there is a `$` behind its `#`, and the ids of its members are those of its members unless there is one
before it.  So without `$`, and not with it, all ids of the model tell what they belong to. -/
theorem toModel_idsTell (document : Document) (model : Model) (hmodel : document.toModel = .ok model) :
    (∀ id shape, model.get? id = some shape →
      shape.id = id ∧ (∃ scope, id.namespace? = some scope ∧ scope ≠ "") ∧
        (id.IsRoot ↔ '$' ∉ id.localPart.toList) ∧
        ∀ member ∈ shape.members, member.id.IsMember id member.name ↔
          ∀ scope ∈ id.namespace?, '$' ∉ scope.toList) ∧
      (model.IdsTell ↔ model.DollarFree) := by
  have hstands (id : ShapeId) (shape : Shape) (hget : model.get? id = some shape) :
      shape.StandsUnder id := standsUnder_of_toModel hmodel hget
  refine ⟨fun id shape hget => ?_, Model.idsTell_iff hstands⟩
  have hshape := hstands id shape hget
  exact ⟨hshape.id_eq, ShapeId.exists_scope hshape.absolute, ShapeId.isRoot_iff hshape.absolute,
    fun member hmem => Model.isMember_iff hstands hget hmem⟩

/-- A document with one structure in each of two namespaces. -/
def letters : Document where
  version := "2.0"
  shapes := ⟨[("com.example#Letter", ⟨.group .struct ⟨[("content", ⟨"smithy.api#String", {}⟩),
      ("from", ⟨"com.people#Person", {}⟩)], by decide⟩, {}⟩),
    ("com.people#Person", ⟨.group .struct
      ⟨[("content", ⟨"smithy.api#String", {}⟩)], by decide⟩, {}⟩)], by decide⟩
  metadata := {}

theorem toModel_idsTell_letters : ∃ model, letters.toModel = .ok model ∧
    model.contains ⟨"com.example#Letter"⟩ = true ∧ model.IdsTell := by
  have hseen : (letters.toModel.toOption.map fun model =>
      (model.contains ⟨"com.example#Letter"⟩, decide model.DollarFree)) = some (true, true) := by
    decide +kernel
  obtain ⟨model, hmodel, hseen⟩ := map_toOption_eq_some_iff.mp hseen
  obtain ⟨hcontains, hfree⟩ := Prod.mk.inj hseen
  exact ⟨model, hmodel, hcontains,
    (toModel_idsTell letters model hmodel).2.mpr (of_decide_eq_true hfree)⟩

/-- A document that writes shapes under the ids of a member of another shape and of a member of nothing. -/
def drafts : Document where
  version := "2.0"
  shapes := ⟨[("com.example#Note", ⟨.group .struct
      ⟨[("content", ⟨"smithy.api#String", {}⟩)], by decide⟩, {}⟩),
    ("com.example#Note$draft", ⟨.group .struct
      ⟨[("content", ⟨"smithy.api#String", {}⟩)], by decide⟩, {}⟩),
    ("com.example#$draft", ⟨.group .struct {}, {}⟩)], by decide⟩
  metadata := {}

/-- A document with a `$` in a namespace. -/
def accounts : Document where
  version := "2.0"
  shapes := ⟨[("com$example#Account", ⟨.group .struct
    ⟨[("content", ⟨"smithy.api#String", {}⟩)], by decide⟩, {}⟩)], by decide⟩
  metadata := {}

/-- One shape has no name and two members have one id; or the id of a member has lost the namespace. -/
theorem not_idsTell_drafts :
    (∃ model, drafts.toModel = .ok model ∧ ¬ model.IdsTell ∧
      model.contains ⟨"com.example#$draft"⟩ = true ∧ ShapeId.name ⟨"com.example#$draft"⟩ = "" ∧
      model.memberIds = [⟨"com.example#Note$content"⟩, ⟨"com.example#Note$content"⟩]) ∧
    ∃ model, accounts.toModel = .ok model ∧ ¬ model.IdsTell ∧
      model.contains ⟨"com$example#Account"⟩ = true ∧ model.memberIds = [⟨"com$content"⟩] := by
  have hdrafts : (drafts.toModel.toOption.map fun model =>
      (decide model.DollarFree, model.contains ⟨"com.example#$draft"⟩, model.memberIds)) =
        some (false, true, [⟨"com.example#Note$content"⟩, ⟨"com.example#Note$content"⟩]) := by
    decide +kernel
  have haccounts : (accounts.toModel.toOption.map fun model =>
      (decide model.DollarFree, model.contains ⟨"com$example#Account"⟩, model.memberIds)) =
        some (false, true, [⟨"com$content"⟩]) := by
    decide +kernel
  have hnot {document : Document} {model : Model} (hmodel : document.toModel = .ok model)
      (hfree : decide model.DollarFree = false) : ¬ model.IdsTell := by
    rw [Model.idsTell_iff fun id shape hget => standsUnder_of_toModel hmodel hget]
    exact of_decide_eq_false hfree
  obtain ⟨first, hfirst, hseen⟩ := map_toOption_eq_some_iff.mp hdrafts
  obtain ⟨hfree, hseen⟩ := Prod.mk.inj hseen
  obtain ⟨hcontains, hids⟩ := Prod.mk.inj hseen
  obtain ⟨second, hsecond, hseen'⟩ := map_toOption_eq_some_iff.mp haccounts
  obtain ⟨hfree', hseen'⟩ := Prod.mk.inj hseen'
  obtain ⟨hcontains', hids'⟩ := Prod.mk.inj hseen'
  exact ⟨⟨first, hfirst, hnot hfirst hfree, hcontains, by decide +kernel, hids⟩,
    second, hsecond, hnot hsecond hfree', hcontains', hids'⟩

end Document

end SmithyKotlin
