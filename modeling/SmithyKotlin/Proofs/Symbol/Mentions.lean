import SmithyKotlin.Proofs.Collections.SortedMap
import SmithyKotlin.Proofs.Symbol.TypeName

/-!
# Shapes inside a type

Below its lists and maps the type of a shape consists of the types of shapes of the model.

* `Model.Holds`: the shapes that are reached from a shape through elements, keys and values, at any depth.
* `KotlinType.mem_leaves_iff_of_ofShape`: the leaves of its type are exactly those of these shapes.
* `KotlinType.mem_generatedNames_iff`: so each generated type that it names comes from a structure or union among
  them.
-/

namespace SmithyKotlin

/-- The members through which lists and maps hold values. -/
def Shape.slots (shape : Shape) : List String :=
  match shape.type with
  | .list => ["member"]
  | .map => ["key", "value"]
  | _ => []

theorem Shape.type_of_mem_slots {shape : Shape} {name : String} (h : name ∈ shape.slots) :
    shape.type = .list ∨ shape.type = .map := by
  rw [slots] at h
  split at h
  · exact .inl ‹_›
  · exact .inr ‹_›
  · cases h

/-- The second shape is the first one, or is reached from it through elements of lists and keys and values
of maps, at any depth. -/
inductive Model.Holds (model : Model) : Shape → Shape → Prop where
  | self (shape : Shape) : model.Holds shape shape
  | slot {outer target inner : Shape} {name : String} {member : Member}
      (hslot : name ∈ outer.slots) (hmember : outer.member? name = some member)
      (htarget : model.get? member.target = some target) (hinner : model.Holds target inner) :
      model.Holds outer inner

/-- What a shape holds is the shape itself, or is held by what stands in one of its slots. -/
theorem Model.holds_iff {model : Model} {outer inner : Shape} :
    model.Holds outer inner ↔ inner = outer ∨ ∃ name ∈ outer.slots, ∃ member target,
      outer.member? name = some member ∧ model.get? member.target = some target ∧
        model.Holds target inner := by
  constructor
  · intro h
    cases h with
    | self => exact .inl rfl
    | slot hslot hmember htarget hinner => exact .inr ⟨_, hslot, _, _, hmember, htarget, hinner⟩
  · intro h
    rcases h with rfl | ⟨_, hslot, _, _, hmember, htarget, hinner⟩
    · exact .self _
    · exact .slot hslot hmember htarget hinner

/-- What a shape of the model holds belongs to the model. -/
theorem Model.Holds.exists_get? {model : Model} {outer inner : Shape}
    (h : model.Holds outer inner) (houter : ∃ id, model.get? id = some outer) :
    ∃ id, model.get? id = some inner := by
  induction h with
  | self => exact houter
  | slot _ _ htarget _ ih => exact ih ⟨_, htarget⟩

/-- A structure or union that becomes a generated type. -/
def Shape.IsGenerated (shape : Shape) : Prop :=
  (shape.type = .struct ∨ shape.type = .union) ∧ shape.isUnit = false

instance (shape : Shape) : Decidable shape.IsGenerated := inferInstanceAs (Decidable (_ ∧ _))

namespace KotlinType

/-- The names of generated types in a type, at any depth. -/
def generatedNames : KotlinType → List String
  | generated name => [name]
  | list element _ => element.generatedNames
  | map key value _ => key.generatedNames ++ value.generatedNames
  | _ => []

theorem mem_generatedNames_generated {name found : String} :
    name ∈ (generated found).generatedNames ↔ name = found := by
  rw [generatedNames, List.mem_singleton]

/-- A named type comes from the shape itself. -/
theorem isGenerated_of_scalar? {shape : Shape} {type : KotlinType} {name : String}
    (h : scalar? shape = some type) (hname : name ∈ type.generatedNames) :
    shape.IsGenerated ∧ name = Naming.pascalCase shape.id.name := by
  by_cases hdeclares : shape.type = .struct ∨ shape.type = .union
  · rw [Shape.scalar?_of_declares hdeclares, Option.some.injEq] at h
    subst h
    by_cases hunit : shape.isUnit = true
    · rw [if_pos hunit] at hname
      cases hname
    · rw [if_neg hunit] at hname
      exact ⟨⟨hdeclares, Bool.eq_false_iff.mpr hunit⟩, mem_generatedNames_generated.mp hname⟩
  · -- all other shapes have types of Kotlin or of the runtime
    have hnone : (scalar? shape).all (·.generatedNames.isEmpty) = true := by
      rw [scalar?]
      split <;> first
        | exact absurd (.inl ‹_›) hdeclares
        | exact absurd (.inr ‹_›) hdeclares
        | rfl
        | split <;> rfl
    rw [h, Option.all_some, List.isEmpty_iff] at hnone
    rw [hnone] at hname
    cases hname

theorem next_eq_ok {model : Model} {available : SortedMap Shape} {shape : Shape} {name : String}
    {found : Next available} (h : next model available shape name = .ok found) :
    ∃ member, shape.member? name = some member ∧
      available.get? member.target.text = some found.target ∧
      found.rest = available.erase member.target.text := by
  rw [next] at h
  split at h
  · cases h
  · rename_i member hmember
    split at h
    · rename_i target htarget
      cases h
      exact ⟨member, hmember, htarget, rfl⟩
    · split at h <;> cases h

/-- All shapes that can still occur belong to the model. -/
def BelongsTo (available : SortedMap Shape) (model : Model) : Prop :=
  ∀ key shape, available.get? key = some shape → model.shapes.get? key = some shape

/-- The next shape is the target of the member, and the rest still belongs to the model. -/
theorem belongsTo_of_next {model : Model} {available : SortedMap Shape} {shape : Shape} {slot : String}
    {found : Next available} (havailable : BelongsTo available model)
    (h : next model available shape slot = .ok found) :
    BelongsTo found.rest model ∧ ∃ member, shape.member? slot = some member ∧
      model.get? member.target = some found.target := by
  obtain ⟨member, hmember, htarget, hrest⟩ := next_eq_ok h
  refine ⟨fun key other hget => ?_, member, hmember, havailable _ _ htarget⟩
  rw [hrest, SortedMap.erase, SortedMap.get?_filterKeys, Option.ite_none_right_eq_some] at hget
  exact havailable key other hget.2

/-! ## Leaves -/

/-- The parts of a type that are no lists or maps. -/
def leaves : KotlinType → List KotlinType
  | list element _ => element.leaves
  | map key value _ => key.leaves ++ value.leaves
  | type => [type]

theorem mem_generatedNames_iff {type : KotlinType} {name : String} :
    name ∈ type.generatedNames ↔ generated name ∈ type.leaves := by
  induction type with
  | builtin | runtime => simp [generatedNames, leaves]
  | generated found => simp [generatedNames, leaves]
  | list element sparse ih => exact ih
  | map key value sparse ihkey ihvalue =>
    rw [generatedNames, leaves, List.mem_append, List.mem_append, ihkey, ihvalue]

theorem leaves_of_scalar? {shape : Shape} {type : KotlinType} (h : scalar? shape = some type) :
    type.leaves = [type] := by
  rw [scalar?] at h
  split at h <;> (try split at h) <;> first | (cases h; rfl) | cases h

theorem slots_of_scalar? {shape : Shape} {type : KotlinType} (h : scalar? shape = some type) :
    shape.slots = [] := by
  rw [Shape.slots]
  split
  · rename_i htype
    rw [scalar?, htype] at h
    cases h
  · rename_i htype
    rw [scalar?, htype] at h
    cases h
  · rfl

/-- The shape holds one whose type is the leaf. -/
def HoldsLeaf (model : Model) (shape : Shape) (leaf : KotlinType) : Prop :=
  ∃ inner, model.Holds shape inner ∧ scalar? inner = some leaf

theorem holdsLeaf_iff_of_scalar? {model : Model} {shape : Shape} {type leaf : KotlinType}
    (h : scalar? shape = some type) : HoldsLeaf model shape leaf ↔ leaf = type := by
  constructor
  · rintro ⟨inner, hholds, hinner⟩
    rcases Model.holds_iff.mp hholds with rfl | ⟨name, hslot, _⟩
    · exact Option.some.inj (hinner.symm.trans h)
    · rw [slots_of_scalar? h] at hslot
      cases hslot
  · rintro rfl
    exact ⟨shape, .self shape, h⟩

/-- The leaves of a list or map are those of what stands in its slots. -/
theorem holdsLeaf_iff_of_slots {model : Model} {shape : Shape} {leaf : KotlinType}
    {names : List String} (hslots : shape.slots = names) (hne : names ≠ []) :
    HoldsLeaf model shape leaf ↔ ∃ name ∈ names, ∃ member target,
      shape.member? name = some member ∧ model.get? member.target = some target ∧
        HoldsLeaf model target leaf := by
  constructor
  · rintro ⟨inner, hholds, hinner⟩
    rcases Model.holds_iff.mp hholds with rfl | ⟨name, hslot, member, target, hmember, htarget, hholds⟩
    · exact absurd (hslots ▸ slots_of_scalar? hinner) hne
    · exact ⟨name, hslots ▸ hslot, member, target, hmember, htarget, inner, hholds, hinner⟩
  · rintro ⟨name, hslot, member, target, hmember, htarget, inner, hholds, hinner⟩
    exact ⟨inner, .slot (hslots ▸ hslot) hmember htarget hholds, hinner⟩

/-- Where the available shapes belong to the model, the leaves of a type are those of the shapes that are
held: none is lost, and none comes from elsewhere. -/
theorem mem_leaves_iff_of_within {model : Model} {available : SortedMap Shape} {shape : Shape}
    {type leaf : KotlinType} (havailable : BelongsTo available model)
    (h : within model available shape = .ok type) :
    leaf ∈ type.leaves ↔ HoldsLeaf model shape leaf := by
  fun_induction within model available shape generalizing type with
  | case1 available shape sparse htype =>
    rename_i ih
    obtain ⟨found, hfound, h⟩ := bind_eq_ok_iff.mp h
    obtain ⟨element, helement, h⟩ := bind_eq_ok_iff.mp h
    cases h
    have hslots : shape.slots = ["member"] := by
      rw [Shape.slots, htype]
    obtain ⟨hrest, member, hmember, htarget⟩ := belongsTo_of_next havailable hfound
    rw [leaves, ih found hrest helement, holdsLeaf_iff_of_slots hslots (List.cons_ne_nil _ _)]
    simp [hmember, htarget]
  | case2 available shape sparse htype =>
    rename_i ih
    obtain ⟨first, hfirst, h⟩ := bind_eq_ok_iff.mp h
    obtain ⟨key, hkey, h⟩ := bind_eq_ok_iff.mp h
    obtain ⟨second, hsecond, h⟩ := bind_eq_ok_iff.mp h
    obtain ⟨value, hvalue, h⟩ := bind_eq_ok_iff.mp h
    cases h
    have hslots : shape.slots = ["key", "value"] := by
      rw [Shape.slots, htype]
    obtain ⟨hrest, member, hmember, htarget⟩ := belongsTo_of_next havailable hfirst
    obtain ⟨hrest', member', hmember', htarget'⟩ := belongsTo_of_next havailable hsecond
    rw [leaves, List.mem_append, ih first hrest hkey, ih second hrest' hvalue,
      holdsLeaf_iff_of_slots hslots (List.cons_ne_nil _ _)]
    simp [hmember, htarget, hmember', htarget']
  | case3 available shape _ _ =>
    obtain ⟨found, hscalar, hfound⟩ : ∃ found, scalar? shape = some found ∧ found = type := by
      cases hscalar : scalar? shape with
      | none =>
        rw [hscalar] at h
        cases h
      | some found =>
        rw [hscalar] at h
        exact ⟨found, rfl, Except.ok.inj h⟩
    rw [← hfound, holdsLeaf_iff_of_scalar? hscalar, leaves_of_scalar? hscalar, List.mem_singleton]

theorem mem_leaves_iff_of_ofShape {model : Model} {shape : Shape} {type leaf : KotlinType}
    (h : ofShape model shape = .ok type) : leaf ∈ type.leaves ↔ HoldsLeaf model shape leaf :=
  mem_leaves_iff_of_within (fun _ _ hget => hget) h

/-- Every generated name in the type of a shape comes from a structure or union that the shape holds. -/
theorem holds_of_ofShape {model : Model} {shape : Shape} {type : KotlinType} {name : String}
    (h : ofShape model shape = .ok type) (hname : name ∈ type.generatedNames) :
    ∃ inner, model.Holds shape inner ∧ inner.IsGenerated ∧
      name = Naming.pascalCase inner.id.name := by
  obtain ⟨inner, hholds, hscalar⟩ := (mem_leaves_iff_of_ofShape h).mp (mem_generatedNames_iff.mp hname)
  exact ⟨inner, hholds, isGenerated_of_scalar? hscalar (mem_generatedNames_generated.mpr rfl)⟩

end KotlinType

end SmithyKotlin
