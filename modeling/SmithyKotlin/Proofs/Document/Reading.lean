import SmithyKotlin.Document.Conversion
import SmithyKotlin.Proofs.Model.Address
import SmithyKotlin.Proofs.Model.Prelude
import SmithyKotlin.Proofs.Outcome

/-!
# Reading the definitions of a document

* `Document.Progress.behind`: what definitions leave when they have been read, the shapes they add to the prelude
  and the `apply` definitions that wait.
* `Document.Progress.add_eq_ok_iff`, `Document.foldlM_add_eq_ok_iff`: reading them succeeds for ids with the form of
  an id (`Document.Readable`), and leaves just that.

What a shape looks like never depends on the other definitions (`Definition.shape`).
-/

namespace SmithyKotlin

theorem forall₂_and_eq_iff {α β : Type} {p : α → Prop} {f : α → β} {xs : List α} {ys : List β} :
    List.Forall₂ (fun x y => p x ∧ y = f x) xs ys ↔ (∀ x ∈ xs, p x) ∧ ys = xs.map f := by
  induction xs generalizing ys with
  | nil => simp
  | cons x xs ih =>
    rw [List.forall₂_cons_left_iff, List.forall_mem_cons]
    constructor
    · intro h
      obtain ⟨y, rest, ⟨hx, rfl⟩, hrest, rfl⟩ := h
      obtain ⟨hxs, rfl⟩ := ih.mp hrest
      exact ⟨⟨hx, hxs⟩, rfl⟩
    · intro h
      obtain ⟨⟨hx, hxs⟩, rfl⟩ := h
      exact ⟨f x, xs.map f, ⟨hx, rfl⟩, ih.mpr ⟨hxs, rfl⟩, rfl⟩

/-! ## Single definitions -/

theorem ShapeId.read_eq_ok_iff {text : String} {id : ShapeId} :
    ShapeId.read text = .ok id ↔ ShapeId.IsQualified text ∧ id = ⟨text⟩ := by
  have hqualified : (⟨text⟩ : ShapeId).isAbsolute = true ↔ ShapeId.IsQualified text :=
    ShapeId.isAbsolute_iff
  rw [ShapeId.read, ← hqualified]
  split
  · rename_i habsolute
    rw [Except.ok.injEq]
    exact ⟨fun h => ⟨habsolute, h.symm⟩, fun h => h.2.symm⟩
  · rename_i habsolute
    constructor
    · intro h
      cases h
    · intro h
      obtain ⟨h, _⟩ := h
      exact absurd h habsolute

/-- The member that a definition describes. -/
def MemberDefinition.member (definition : MemberDefinition) (container : ShapeId) (name : String) :
    Member :=
  .of container name ⟨definition.target⟩ definition.traits.toMap

theorem MemberDefinition.toMember_eq_ok_iff {definition : MemberDefinition} {container : ShapeId}
    {name : String} {member : Member} :
    definition.toMember container name = .ok member ↔
      ShapeId.IsQualified definition.target ∧ member = definition.member container name := by
  rw [toMember, map_eq_ok_iff]
  simp only [ShapeId.read_eq_ok_iff]
  constructor
  · intro h
    obtain ⟨target, ⟨hqualified, rfl⟩, rfl⟩ := h
    exact ⟨hqualified, rfl⟩
  · intro h
    obtain ⟨hqualified, rfl⟩ := h
    exact ⟨_, ⟨hqualified, rfl⟩, rfl⟩

namespace Definition

/-- The shape that a definition describes. -/
def shape (definition : Definition) (id : ShapeId) (type : ShapeType) : Shape :=
  { id, type
    members := definition.body.memberDefinitions.map fun entry => entry.2.member id entry.1
    traits := definition.body.addTraits definition.traits.toMap }

/-- All members target something that has the form of an id. -/
def TargetsQualified (definition : Definition) : Prop :=
  ∀ entry ∈ definition.body.memberDefinitions, ShapeId.IsQualified entry.2.target

theorem toShape_eq_ok_iff {definition : Definition} {id : ShapeId} {type : ShapeType}
    {shape : Shape} :
    definition.toShape id type = .ok shape ↔
      definition.TargetsQualified ∧ shape = definition.shape id type := by
  rw [toShape, bind_eq_ok_iff]
  simp only [mapM_eq_ok_iff, MemberDefinition.toMember_eq_ok_iff, forall₂_and_eq_iff]
  constructor
  · intro h
    obtain ⟨members, ⟨htargets, rfl⟩, h⟩ := h
    cases h
    exact ⟨htargets, rfl⟩
  · intro h
    obtain ⟨htargets, rfl⟩ := h
    exact ⟨_, ⟨htargets, rfl⟩, rfl⟩

end Definition

theorem Body.shapeType?_eq_none_iff {body : Body} : body.shapeType? = none ↔ body.tag = .apply := by
  cases body <;> simp [shapeType?, tag]

/-- Whatever is no `apply` has a shape type. -/
theorem Body.tag_ne_apply_iff {body : Body} :
    body.tag ≠ .apply ↔ ∃ type, body.shapeType? = some type := by
  rw [Ne, ← shapeType?_eq_none_iff]
  exact Option.ne_none_iff_exists'

namespace Document

/-! ## One entry after the other -/

/-- The shape that an entry adds to the model. -/
def keyedShape? (entry : String × Definition) : Option (String × Shape) :=
  if (⟨entry.1⟩ : ShapeId) ∈ Prelude.ids then none
  else entry.2.body.shapeType?.map fun type => (entry.1, entry.2.shape ⟨entry.1⟩ type)

/-- The traits that an entry adds to something else. -/
def application? (entry : String × Definition) : Option (ShapeId × TraitMap) :=
  if entry.2.body.tag = .apply then some (⟨entry.1⟩, entry.2.traits.toMap) else none

/-- An entry under an id, with targets that are ids where it defines a shape. -/
structure Readable (entry : String × Definition) : Prop where
  key : ShapeId.IsQualified entry.1
  targets : entry.2.body.tag ≠ .apply → (⟨entry.1⟩ : ShapeId) ∉ Prelude.ids →
    entry.2.TargetsQualified

/-- What is left to do behind some entries. -/
def Progress.behind (progress : Progress) (entries : List (String × Definition)) : Progress where
  model := { progress.model with
    shapes := progress.model.shapes.insertAll (entries.filterMap keyedShape?) }
  applies := progress.applies ++ entries.filterMap application?

theorem Progress.behind_cons (progress : Progress) (entry : String × Definition)
    (rest : List (String × Definition)) :
    (progress.behind [entry]).behind rest = progress.behind (entry :: rest) := by
  have hsplit {α : Type} (f : String × Definition → Option α) :
      (entry :: rest).filterMap f = [entry].filterMap f ++ rest.filterMap f := by
    rw [← List.filterMap_append, List.singleton_append]
  simp only [behind, hsplit, List.append_assoc, SortedMap.insertAll, List.foldl_append]

theorem Progress.behind_apply {progress : Progress} {entry : String × Definition}
    (htag : entry.2.body.tag = .apply) :
    progress.behind [entry] =
      { progress with applies := progress.applies ++ [(⟨entry.1⟩, entry.2.traits.toMap)] } := by
  have htype := Body.shapeType?_eq_none_iff.mpr htag
  simp [behind, keyedShape?, application?, htype, htag, SortedMap.insertAll]

theorem Progress.behind_prelude {progress : Progress} {entry : String × Definition}
    (htag : entry.2.body.tag ≠ .apply) (hprelude : (⟨entry.1⟩ : ShapeId) ∈ Prelude.ids) :
    progress.behind [entry] = progress := by
  simp [behind, keyedShape?, application?, hprelude, htag, SortedMap.insertAll]

theorem Progress.behind_shape {progress : Progress} {entry : String × Definition}
    {type : ShapeType} (htype : entry.2.body.shapeType? = some type)
    (hprelude : (⟨entry.1⟩ : ShapeId) ∉ Prelude.ids) :
    progress.behind [entry] =
      { progress with model := progress.model.insert (entry.2.shape ⟨entry.1⟩ type) } := by
  have htag := Body.tag_ne_apply_iff.mpr ⟨type, htype⟩
  simp [behind, keyedShape?, application?, hprelude, htype, htag, SortedMap.insertAll, Model.insert,
    Definition.shape]

/-- The test for definitions that are left out. -/
theorem isLeftOut_iff {model : Model} {id : ShapeId}
    (hfresh : model.contains id = true ↔ id ∈ Prelude.ids) :
    (id.namespace? = some Prelude.scope && model.contains id) = true ↔ id ∈ Prelude.ids := by
  rw [Bool.and_eq_true, decide_eq_true_eq, hfresh]
  exact ⟨And.right, fun h => ⟨Prelude.namespace?_of_mem_ids h, h⟩⟩

/-- Reading one entry, in a model that has no id of the entry unless the prelude has it. -/
theorem Progress.add_eq_ok_iff {progress after : Progress} {entry : String × Definition}
    (hfresh : progress.model.contains ⟨entry.1⟩ = true ↔ (⟨entry.1⟩ : ShapeId) ∈ Prelude.ids) :
    progress.add entry = .ok after ↔ Readable entry ∧ after = progress.behind [entry] := by
  rw [add, bind_eq_ok_iff]
  simp only [ShapeId.read_eq_ok_iff]
  cases htype : entry.2.body.shapeType? with
  | none =>
    have htag := Body.shapeType?_eq_none_iff.mp htype
    rw [behind_apply htag]
    constructor
    · intro h
      obtain ⟨id, ⟨hkey, rfl⟩, h⟩ := h
      cases h
      exact ⟨⟨hkey, fun hne => absurd htag hne⟩, rfl⟩
    · intro h
      obtain ⟨hreadable, rfl⟩ := h
      exact ⟨_, ⟨hreadable.key, rfl⟩, rfl⟩
  | some type =>
    have htag := Body.tag_ne_apply_iff.mpr ⟨type, htype⟩
    by_cases hprelude : (⟨entry.1⟩ : ShapeId) ∈ Prelude.ids
    · have hskip := (isLeftOut_iff hfresh).mpr hprelude
      rw [behind_prelude htag hprelude]
      constructor
      · intro h
        obtain ⟨id, ⟨hkey, rfl⟩, h⟩ := h
        dsimp only at h
        rw [if_pos hskip] at h
        cases h
        exact ⟨⟨hkey, fun _ hnot => absurd hprelude hnot⟩, rfl⟩
      · intro h
        obtain ⟨hreadable, rfl⟩ := h
        refine ⟨_, ⟨hreadable.key, rfl⟩, ?_⟩
        dsimp only
        rw [if_pos hskip]
        rfl
    · have hkeep := mt (isLeftOut_iff hfresh).mp hprelude
      rw [behind_shape htype hprelude]
      constructor
      · intro h
        obtain ⟨id, ⟨hkey, rfl⟩, h⟩ := h
        dsimp only at h
        rw [if_neg hkeep] at h
        obtain ⟨shape, hshape, h⟩ := bind_eq_ok_iff.mp h
        obtain ⟨htargets, rfl⟩ := Definition.toShape_eq_ok_iff.mp hshape
        cases h
        exact ⟨⟨hkey, fun _ _ => htargets⟩, rfl⟩
      · intro h
        obtain ⟨hreadable, rfl⟩ := h
        refine ⟨_, ⟨hreadable.key, rfl⟩, ?_⟩
        have htargets := hreadable.targets htag hprelude
        dsimp only
        rw [if_neg hkeep, Definition.toShape_eq_ok_iff.mpr ⟨htargets, rfl⟩]
        rfl

/-! ## All entries -/

theorem key_of_keyedShape? {entry : String × Definition} {key : String} {shape : Shape}
    (h : keyedShape? entry = some (key, shape)) : key = entry.1 := by
  rw [keyedShape?] at h
  split at h
  · cases h
  · obtain ⟨type, _, heq⟩ := Option.map_eq_some_iff.mp h
    cases heq
    rfl

/-- An entry adds nothing under other keys. -/
theorem Progress.contains_behind {progress : Progress} {entry : String × Definition} {key : String}
    (hne : entry.1 ≠ key) :
    (progress.behind [entry]).model.contains ⟨key⟩ = progress.model.contains ⟨key⟩ := by
  rw [Model.contains, Model.contains, Model.get?, Model.get?, behind]
  dsimp only
  cases hshape : keyedShape? entry with
  | none =>
    rw [List.filterMap_cons_none hshape]
    rfl
  | some image =>
    have hkey : image.1 = entry.1 := key_of_keyedShape? hshape
    rw [List.filterMap_cons_some hshape, List.filterMap_nil]
    change ((progress.model.shapes.insert image.1 image.2).get? key).isSome = _
    rw [SortedMap.get?_insert, if_neg (hkey ▸ hne)]

/-- Reading all entries comes to the same as reading each of them alone. -/
theorem foldlM_add_eq_ok_iff {entries : List (String × Definition)} {progress after : Progress}
    (hnodup : (entries.map Prod.fst).Nodup)
    (hfresh : ∀ entry ∈ entries, progress.model.contains ⟨entry.1⟩ = true ↔
      (⟨entry.1⟩ : ShapeId) ∈ Prelude.ids) :
    entries.foldlM Progress.add progress = .ok after ↔
      (∀ entry ∈ entries, Readable entry) ∧ after = progress.behind entries := by
  induction entries generalizing progress with
  | nil =>
    have hbehind : progress.behind [] = progress := by
      rw [Progress.behind, List.filterMap_nil, List.filterMap_nil, List.append_nil]
      rfl
    rw [hbehind, List.foldlM_nil]
    constructor
    · intro h
      cases h
      exact ⟨fun entry hmem => absurd hmem List.not_mem_nil, rfl⟩
    · intro h
      obtain ⟨_, rfl⟩ := h
      rfl
  | cons entry rest ih =>
    rw [List.map_cons, List.nodup_cons] at hnodup
    have hfreshRest : ∀ other ∈ rest, (progress.behind [entry]).model.contains ⟨other.1⟩ = true ↔
        (⟨other.1⟩ : ShapeId) ∈ Prelude.ids := by
      intro other hmem
      have hne : entry.1 ≠ other.1 := fun heq =>
        hnodup.1 (heq ▸ List.mem_map_of_mem hmem)
      rw [Progress.contains_behind hne]
      exact hfresh other (List.mem_cons_of_mem _ hmem)
    rw [List.foldlM_cons, bind_eq_ok_iff, List.forall_mem_cons]
    simp only [Progress.add_eq_ok_iff (hfresh entry List.mem_cons_self)]
    constructor
    · intro h
      obtain ⟨_, ⟨hentry, rfl⟩, hrest⟩ := h
      obtain ⟨hreadable, rfl⟩ := (ih hnodup.2 hfreshRest).mp hrest
      exact ⟨⟨hentry, hreadable⟩, Progress.behind_cons progress entry rest⟩
    · intro h
      obtain ⟨⟨hentry, hreadable⟩, rfl⟩ := h
      refine ⟨_, ⟨hentry, rfl⟩, (ih hnodup.2 hfreshRest).mpr ⟨hreadable, ?_⟩⟩
      exact (Progress.behind_cons progress entry rest).symm

end Document

end SmithyKotlin
