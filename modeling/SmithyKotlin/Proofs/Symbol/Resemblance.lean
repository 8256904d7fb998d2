import SmithyKotlin.Proofs.Outcome
import SmithyKotlin.Proofs.Symbol.Mentions

/-!
# What types show of shapes

A type shows the id, the type and the traits of a shape, and of its members only those that are the slots of a list
or map (`Shape.Resembles`).  So shapes that differ in other members only, such as a union with its members in
another order, have the same type, and so have all shapes that lead to them: `KotlinType.ofShape_matching` for two
models with such shapes (`Matching`), `SymbolProvider.kotlinMember_matching` for the symbols.
-/

namespace SmithyKotlin

/-- The shapes differ at most in members that are no slots. -/
structure Shape.Resembles (shape other : Shape) : Prop where
  id : other.id = shape.id
  type : other.type = shape.type
  traits : other.traits = shape.traits
  slots : ∀ name ∈ shape.slots, other.member? name = shape.member? name

theorem Shape.Resembles.refl (shape : Shape) : shape.Resembles shape :=
  ⟨rfl, rfl, rfl, fun _ _ => rfl⟩

/-- The members of a union are no slots. -/
theorem Shape.resembles_withMembers {shape : Shape} (htype : shape.type = .union)
    (members : List Member) : shape.Resembles { shape with members } := by
  refine ⟨rfl, rfl, rfl, fun name hname => ?_⟩
  rw [slots, htype] at hname
  cases hname

theorem optionRel_refl (found : Option Shape) : Option.Rel Shape.Resembles found found := by
  cases found with
  | none => exact .none
  | some shape => exact .some (.refl shape)

/-- Where shapes resemble each other, both are there or none is. -/
theorem isSome_of_rel {found found' : Option Shape} (h : Option.Rel Shape.Resembles found found') :
    found'.isSome = found.isSome := by
  cases h <;> rfl

namespace KotlinType

theorem scalar?_of_resembles {shape other : Shape} (h : shape.Resembles other) :
    scalar? other = scalar? shape := by
  rw [scalar?, scalar?, h.type, h.id, h.traits, Shape.isStreaming, Shape.isStreaming, h.traits]

theorem next_eq_error_iff {model : Model} {available : SortedMap Shape} {shape : Shape}
    {name : String} {error : CodegenError} :
    next model available shape name = .error error ↔
      (shape.member? name = none ∧ error = .missingMember shape.id name) ∨
        ∃ member, shape.member? name = some member ∧ available.get? member.target.text = none ∧
          error = if model.contains member.target then .endlessType member.target
            else .unresolvedShape member.target := by
  rw [next]
  split
  · rename_i hmember
    simp only [hmember, Except.error.injEq, true_and, reduceCtorEq, false_and, exists_false,
      or_false]
    exact eq_comm
  · rename_i member hmember
    simp only [hmember, reduceCtorEq, false_and, false_or, Option.some.injEq, exists_eq_left']
    split
    · rename_i target htarget
      simp only [htarget, reduceCtorEq, false_and]
    · rename_i htarget
      rw [← apply_ite Except.error, Except.error.injEq, and_iff_right htarget]
      exact eq_comm

/-- What stands in the slots of a shape is looked up under these ids. -/
def SlotsIn (ids : ShapeId → Prop) (shape : Shape) : Prop :=
  ∀ name ∈ shape.slots, ∀ member, shape.member? name = some member → ids member.target

/-- Under these ids, which are all that is looked up, one model has shapes like those of the other one. -/
structure Matching (ids : ShapeId → Prop) (a b : Model) : Prop where
  closed : ∀ id outer, ids id → a.get? id = some outer → SlotsIn ids outer
  like : ∀ id, ids id → Option.Rel Shape.Resembles (a.get? id) (b.get? id)

/-- The same of the shapes that can still occur in a type. -/
structure MatchingRest (ids : ShapeId → Prop) (a : Model) (xs ys : SortedMap Shape) : Prop where
  belongs : BelongsTo xs a
  like : ∀ id, ids id → Option.Rel Shape.Resembles (xs.get? id.text) (ys.get? id.text)

theorem MatchingRest.erase {ids : ShapeId → Prop} {a : Model} {xs ys : SortedMap Shape}
    (h : MatchingRest ids a xs ys) (key : String) :
    MatchingRest ids a (xs.erase key) (ys.erase key) := by
  refine ⟨fun other shape hget => ?_, fun id hid => ?_⟩
  · rw [SortedMap.erase, SortedMap.get?_filterKeys, Option.ite_none_right_eq_some] at hget
    exact h.belongs other shape hget.2
  · rw [SortedMap.erase, SortedMap.erase, SortedMap.get?_filterKeys, SortedMap.get?_filterKeys]
    split
    · exact h.like id hid
    · exact .none

section Matching

variable {ids : ShapeId → Prop} {a b : Model} {xs ys : SortedMap Shape} {shape other : Shape}
  {name : String}

/-- One step finds shapes that resemble each other, or fails in both models in the same way. -/
theorem next_matching (hmodels : Matching ids a b) (hrest : MatchingRest ids a xs ys)
    (hlike : shape.Resembles other) (hslots : SlotsIn ids shape) (hname : name ∈ shape.slots) :
    (∃ error, next a xs shape name = .error error ∧ next b ys other name = .error error) ∨
      ∃ (found : Next xs) (found' : Next ys), next a xs shape name = .ok found ∧
        next b ys other name = .ok found' ∧ found.target.Resembles found'.target ∧
        SlotsIn ids found.target ∧ MatchingRest ids a found.rest found'.rest := by
  have hmember := hlike.slots name hname
  cases hfound : next a xs shape name with
  | error error =>
    refine .inl ⟨error, rfl, ?_⟩
    rw [next_eq_error_iff] at hfound ⊢
    rw [hmember, hlike.id]
    refine hfound.imp_right ?_
    intro h
    obtain ⟨member, hsome, hnone, herror⟩ := h
    have hid := hslots name hname member hsome
    have hcontains : b.contains member.target = a.contains member.target :=
      isSome_of_rel (hmodels.like _ hid)
    have hlook := hrest.like _ hid
    rw [hnone] at hlook
    cases hlook' : ys.get? member.target.text with
    | none => exact ⟨member, hsome, hlook', hcontains ▸ herror⟩
    | some target =>
      rw [hlook'] at hlook
      cases hlook
  | ok found =>
    obtain ⟨member, hsome, htarget, hfoundRest⟩ := next_eq_ok hfound
    have hid := hslots name hname member hsome
    have hlook := hrest.like _ hid
    rw [htarget] at hlook
    cases hother : next b ys other name with
    | error error =>
      rw [next_eq_error_iff, hmember] at hother
      rcases hother with ⟨hnone, _⟩ | ⟨member', hsome', hnone, _⟩
      · rw [hsome] at hnone
        cases hnone
      · obtain rfl := Option.some.inj (hsome.symm.trans hsome')
        rw [hnone] at hlook
        cases hlook
    | ok found' =>
      obtain ⟨member', hsome', htarget', hfoundRest'⟩ := next_eq_ok hother
      obtain rfl := Option.some.inj (hsome.symm.trans (hmember ▸ hsome'))
      rw [htarget'] at hlook
      cases hlook with
      | some hresembles =>
        refine .inr ⟨found, found', rfl, rfl, hresembles, ?_, ?_⟩
        · exact hmodels.closed _ _ hid (hrest.belongs _ _ htarget)
        · rw [hfoundRest, hfoundRest']
          exact hrest.erase _

/-- What is made of the type in a slot is the same in both models, where the type is. -/
theorem bind_next_matching (hmodels : Matching ids a b) (hrest : MatchingRest ids a xs ys)
    (hlike : shape.Resembles other) (hslots : SlotsIn ids shape) (hname : name ∈ shape.slots)
    (hwithin : ∀ (found : Next xs) {rest : SortedMap Shape} {target : Shape},
      MatchingRest ids a found.rest rest → found.target.Resembles target →
        SlotsIn ids found.target → within a found.rest found.target = within b rest target)
    {make make' : KotlinType → Except CodegenError KotlinType} (hmake : ∀ type, make type = make' type) :
    (next a xs shape name >>= fun found => within a found.rest found.target >>= make) =
      next b ys other name >>= fun found => within b found.rest found.target >>= make' := by
  rcases next_matching hmodels hrest hlike hslots hname with
    ⟨error, hfound, hother⟩ | ⟨found, found', hfound, hother, htarget, hinner, hfoundRest⟩
  · rw [hfound, hother, error_bind, error_bind]
  · rw [hfound, hother, ok_bind, ok_bind, hwithin found hfoundRest htarget hinner, funext hmake]

/-- Shapes that resemble each other have the same type, or fail in the same way. -/
theorem within_matching (hmodels : Matching ids a b) (hrest : MatchingRest ids a xs ys)
    (hlike : shape.Resembles other) (hslots : SlotsIn ids shape) :
    within a xs shape = within b ys other := by
  fun_induction within a xs shape generalizing ys other with
  | case1 xs shape sparse htype =>
    rename_i ih
    have hslot : "member" ∈ shape.slots := by
      rw [Shape.slots, htype]
      exact List.mem_singleton_self _
    rw [within, hlike.type, htype, hlike.traits]
    exact bind_next_matching hmodels hrest hlike hslots hslot ih fun element => rfl
  | case2 xs shape sparse htype =>
    rename_i ih
    have hslot : shape.slots = ["key", "value"] := by
      rw [Shape.slots, htype]
    have hkey : "key" ∈ shape.slots := hslot ▸ List.mem_cons_self
    have hvalue : "value" ∈ shape.slots := hslot ▸ List.mem_cons_of_mem _ List.mem_cons_self
    rw [within, hlike.type, htype, hlike.traits]
    refine bind_next_matching hmodels hrest hlike hslots hkey ih fun key => ?_
    exact bind_next_matching hmodels hrest hlike hslots hvalue ih fun value => rfl
  | case3 xs shape hlist hmap =>
    rw [within]
    split
    · exact absurd (hlike.type ▸ ‹_›) hlist
    · exact absurd (hlike.type ▸ ‹_›) hmap
    · rw [scalar?_of_resembles hlike, hlike.type, hlike.id]

theorem ofShape_matching (hmodels : Matching ids a b) (hlike : shape.Resembles other)
    (hslots : SlotsIn ids shape) : ofShape a shape = ofShape b other :=
  within_matching hmodels ⟨fun _ _ hget => hget, hmodels.like⟩ hlike hslots

end Matching

end KotlinType

/-- Under one of the ids both models find shapes that resemble each other, or neither finds one. -/
theorem Model.find_matching {ids : ShapeId → Prop} {a b : Model}
    (hmodels : KotlinType.Matching ids a b) {id : ShapeId} (hid : ids id) :
    (a.find id = .error (.unresolvedShape id) ∧ b.find id = .error (.unresolvedShape id)) ∨
      ∃ shape other, a.find id = .ok shape ∧ b.find id = .ok other ∧ shape.Resembles other ∧
        KotlinType.SlotsIn ids shape := by
  have hlike := hmodels.like id hid
  cases hget : a.get? id with
  | none =>
    cases hother : b.get? id with
    | none => exact .inl ⟨find_eq_error_iff.mpr ⟨hget, rfl⟩, find_eq_error_iff.mpr ⟨hother, rfl⟩⟩
    | some other =>
      rw [hget, hother] at hlike
      cases hlike
  | some shape =>
    cases hother : b.get? id with
    | none =>
      rw [hget, hother] at hlike
      cases hlike
    | some other =>
      rw [hget, hother] at hlike
      cases hlike with
      | some hresembles =>
        exact .inr ⟨shape, other, find_eq_ok_iff.mpr hget, find_eq_ok_iff.mpr hother, hresembles,
          hmodels.closed id shape hid hget⟩

namespace SymbolProvider

variable {ids : ShapeId → Prop} {a b : Model} (hmodels : KotlinType.Matching ids a b)

include hmodels

/-- Shapes that resemble each other have the same symbol. -/
theorem kotlinShape_matching (settings : Settings) {shape other : Shape}
    (hlike : shape.Resembles other) (hslots : KotlinType.SlotsIn ids shape) :
    kotlinShape settings a shape = kotlinShape settings b other := by
  rw [kotlinShape, kotlinShape, KotlinType.ofShape_matching hmodels hlike hslots]

theorem kotlinMember_matching (settings : Settings) {member : Member} (hid : ids member.target) :
    kotlinMember settings a member = kotlinMember settings b member := by
  rw [kotlinMember, kotlinMember]
  rcases Model.find_matching hmodels hid with
    ⟨hfind, hother⟩ | ⟨target, target', hfind, hother, hlike, hslots⟩
  · rw [hfind, hother, error_bind, error_bind]
  · have hnonNull : member.isNonNull target' = member.isNonNull target := by
      rw [Member.isNonNull, Member.isNonNull, hlike.traits]
    rw [hfind, hother, ok_bind, ok_bind, kotlinShape_matching hmodels settings hlike hslots,
      hnonNull, hlike.type]

end SymbolProvider

end SmithyKotlin
