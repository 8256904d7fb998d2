import SmithyKotlin.Proofs.Document.Description

/-!
# Conversion gives the described model

* `Document.described`: the model behind the three steps of the conversion, and what is found in it
  (`Document.get?_described`).
* `Document.describes_iff`: it is the only model that the document describes.
* `Document.convertible_iff`: the steps succeed for the documents that can be converted.
* `Document.toModel_eq_ok_iff` puts these together.

Why a document cannot be converted, so the error, is not part of the description.
-/

namespace SmithyKotlin.Document

theorem supportsVersion_iff {version : String} :
    supportsVersion version = true ↔ VersionSupported version := by
  have hone : '.' ∉ "1".toList := by decide
  have htwo : '.' ∉ "2".toList := by decide
  rw [supportsVersion, Bool.or_eq_true, decide_eq_true_eq, decide_eq_true_eq,
    Text.before_eq_iff hone, Text.before_eq_iff htwo, VersionSupported]
  simp only [List.mem_cons, List.not_mem_nil, or_false, exists_eq_or_imp, exists_eq_left]
  exact Iff.rfl

/-! ## The shapes before anything is applied -/

/-- What has been read when nothing is applied yet. -/
def readProgress (document : Document) : Progress :=
  Progress.behind ⟨Prelude.model, []⟩ document.shapes.entries

/-- The applications of a document. -/
def applications (document : Document) : List Application :=
  document.shapes.entries.filterMap application?

theorem readProgress_applies (document : Document) :
    document.readProgress.applies = document.applications :=
  List.nil_append _

theorem metadata_readProgress (document : Document) :
    document.readProgress.model.metadata = {} := by
  rw [readProgress, Progress.behind, Prelude.model, Model.shapes_foldl_insert]

theorem mem_keyedShapes_iff {document : Document} {key : String} {shape : Shape} :
    (key, shape) ∈ document.shapes.entries.filterMap keyedShape? ↔
      (⟨key⟩ : ShapeId) ∉ Prelude.ids ∧ ∃ definition type,
        document.definition? key = some definition ∧ definition.body.shapeType? = some type ∧
          shape = definition.shape ⟨key⟩ type := by
  rw [List.mem_filterMap]
  constructor
  · intro h
    obtain ⟨⟨k, definition⟩, hmem, hentry⟩ := h
    obtain rfl := key_of_keyedShape? hentry
    rw [keyedShape?] at hentry
    split at hentry
    · cases hentry
    · rename_i hprelude
      obtain ⟨type, htype, heq⟩ := Option.map_eq_some_iff.mp hentry
      cases heq
      exact ⟨hprelude, definition, type, KeyedList.get?_eq_some_iff.mpr hmem, htype, rfl⟩
  · intro h
    obtain ⟨hprelude, definition, type, hget, htype, rfl⟩ := h
    refine ⟨(key, definition), KeyedList.get?_eq_some_iff.mp hget, ?_⟩
    rw [keyedShape?, if_neg hprelude, htype]
    rfl

theorem nodup_keyedShapes (document : Document) :
    ((document.shapes.entries.filterMap keyedShape?).map Prod.fst).Nodup := by
  refine (keys_filterMap_sublist ?_ _).nodup document.shapes.distinct
  intro entry image himage
  exact key_of_keyedShape? himage

/-- The prelude keeps its shapes. -/
theorem get?_readProgress_of_mem {document : Document} {id : ShapeId} (h : id ∈ Prelude.ids) :
    document.readProgress.model.get? id = Prelude.model.get? id := by
  have hnone : findEntry id.text (document.shapes.entries.filterMap keyedShape?) = none := by
    rw [findEntry_eq_none_iff]
    intro hkey
    obtain ⟨⟨key, shape⟩, hmem, rfl⟩ := List.mem_map.mp hkey
    exact (mem_keyedShapes_iff.mp hmem).1 h
  rw [readProgress, Progress.behind, Model.get?, SortedMap.get?_insertAll _ document.nodup_keyedShapes,
    hnone, Option.none_or]
  rfl

/-- Every other id finds the shape of its definition. -/
theorem get?_readProgress_of_not_mem {document : Document} {id : ShapeId} (h : id ∉ Prelude.ids)
    {shape : Shape} :
    document.readProgress.model.get? id = some shape ↔ ∃ definition type,
      document.definition? id.text = some definition ∧ definition.body.shapeType? = some type ∧
        shape = definition.shape id type := by
  have hnone : Prelude.model.shapes.get? id.text = none := by
    have hcontains := mt Prelude.contains_model_iff.mp h
    rw [Model.contains, Bool.not_eq_true, Option.isSome_eq_false_iff] at hcontains
    exact Option.isNone_iff_eq_none.mp hcontains
  rw [readProgress, Progress.behind, Model.get?, SortedMap.get?_insertAll _ document.nodup_keyedShapes,
    hnone, Option.or_none, findEntry_eq_some_iff document.nodup_keyedShapes, mem_keyedShapes_iff]
  exact and_iff_right h

theorem memberNames_shape (definition : Definition) (id : ShapeId) (type : ShapeType) :
    (definition.shape id type).memberNames = definition.body.memberDefinitions.map Prod.fst := by
  rw [Shape.memberNames, Definition.shape, List.map_map]
  rfl

/-- The names that the document gives to the members of a shape are those in the model. -/
theorem hasMembers_iff {document : Document} {id : ShapeId} {names : List String} :
    document.HasMembers id names ↔
      ∃ shape, document.readProgress.model.get? id = some shape ∧ shape.memberNames = names := by
  rw [HasMembers]
  by_cases hprelude : id ∈ Prelude.ids
  · rw [get?_readProgress_of_mem hprelude]
    simp only [Prelude.get?_model_iff, hprelude, not_true_eq_false, false_and, or_false, and_assoc]
  · have hnone : ¬ ∃ shape ∈ Prelude.shapes, shape.id = id ∧ shape.memberNames = names := by
      intro h
      obtain ⟨shape, hmem, hid, _⟩ := h
      exact hprelude (Prelude.mem_ids_iff.mpr ⟨shape, hmem, hid⟩)
    rw [or_iff_right hnone, and_iff_right hprelude]
    simp only [get?_readProgress_of_not_mem hprelude]
    constructor
    · intro h
      obtain ⟨definition, hget, htag, rfl⟩ := h
      obtain ⟨type, htype⟩ := Body.tag_ne_apply_iff.mp htag
      exact ⟨_, ⟨definition, type, hget, htype, rfl⟩, memberNames_shape definition id type⟩
    · intro h
      obtain ⟨_, ⟨definition, type, hget, htype, rfl⟩, rfl⟩ := h
      exact ⟨definition, hget, Body.tag_ne_apply_iff.mpr ⟨type, htype⟩,
        (memberNames_shape definition id type).symm⟩

theorem namesDistinct_readProgress (document : Document) :
    document.readProgress.model.NamesDistinct := by
  intro id shape hget
  rcases hasMembers_iff.mpr ⟨shape, hget, rfl⟩ with
    ⟨found, hmem, _, hnames⟩ | ⟨_, definition, _, _, hnames⟩
  · rw [← hnames, Shape.memberNames, Prelude.members_of_mem_shapes hmem]
    exact List.nodup_nil
  · rw [← hnames]
    exact definition.body.nodup_memberDefinitions

theorem mem_applications_iff {document : Document} {application : Application} :
    application ∈ document.applications ↔ ∃ entry ∈ document.shapes.entries,
      entry.2.body.tag = .apply ∧ application = (⟨entry.1⟩, entry.2.traits.toMap) := by
  rw [applications, List.mem_filterMap]
  simp only [application?, Option.ite_none_right_eq_some, Option.some.injEq, @eq_comm _ application]

/-- All applications address something when every `apply` is for something in the document. -/
theorem addresses_applications_iff {document : Document} :
    (∀ application ∈ document.applications,
        document.readProgress.model.Addresses application.1) ↔
      ∀ entry ∈ document.shapes.entries, entry.2.body.tag = .apply →
        ∃ names, document.HasMembers (⟨entry.1⟩ : ShapeId).container names ∧
          ∀ name ∈ (⟨entry.1⟩ : ShapeId).member?, name ∈ names := by
  have haddresses (id : ShapeId) : document.readProgress.model.Addresses id ↔
      ∃ names, document.HasMembers id.container names ∧ ∀ name ∈ id.member?, name ∈ names := by
    rw [Model.Addresses]
    simp only [hasMembers_iff, exists_exists_and_eq_and]
  constructor
  · intro h entry hmem htag
    have happlication := h (⟨entry.1⟩, entry.2.traits.toMap)
      (mem_applications_iff.mpr ⟨entry, hmem, htag, rfl⟩)
    exact (haddresses ⟨entry.1⟩).mp happlication
  · intro h application hmem
    obtain ⟨entry, hentry, htag, rfl⟩ := mem_applications_iff.mp hmem
    exact (haddresses ⟨entry.1⟩).mpr (h entry hentry htag)

/-! ## Applied traits -/

theorem appliedTrait?_applications (document : Document) (id : ShapeId) (member? : Option String)
    (trait : String) :
    appliedTrait? document.applications id member? trait = document.applied? id member? trait := by
  rw [appliedTrait?, applications, applied?, ← List.head?_filterMap, List.filterMap_filterMap,
    List.head?_filterMap]
  congr 1
  funext entry
  rw [application?]
  by_cases htag : entry.2.body.tag = .apply
  · rw [if_pos htag, Option.bind_some, TraitList.get?_toMap]
    simp only [Application.IsFor, htag, true_and]
    rfl
  · rw [if_neg htag, if_neg fun h => htag h.1]
    rfl

/-- Under ids no two applications are for the same thing. -/
theorem distinctAddresses_applications {document : Document}
    (hkeys : ∀ entry ∈ document.shapes.entries, ShapeId.IsQualified entry.1) :
    DistinctAddresses document.applications := by
  have hentries := document.shapes.distinct
  rw [List.nodup_iff_pairwise_ne, List.pairwise_map] at hentries
  rw [DistinctAddresses, applications, List.pairwise_filterMap]
  refine hentries.imp_of_mem ?_
  intro a b hmemA hmemB hne applicationA hA applicationB hB id member? hforA hforB
  rw [application?, Option.ite_none_right_eq_some, Option.some.injEq] at hA hB
  obtain ⟨_, rfl⟩ := hA
  obtain ⟨_, rfl⟩ := hB
  have habsolute (entry) (hmem : entry ∈ document.shapes.entries) :
      (⟨entry.1⟩ : ShapeId).isAbsolute = true := ShapeId.isAbsolute_iff.mpr (hkeys entry hmem)
  have hsame := ShapeId.eq_of_address_eq (habsolute a hmemA) (habsolute b hmemB)
    (hforA.1.trans hforB.1.symm) (hforA.2.trans hforB.2.symm)
  exact hne (congrArg ShapeId.text hsame)

/-! ## The described model -/

/-- The model that a document describes. -/
def described (document : Document) : Model :=
  let applied := document.readProgress.model.behind document.applications
  { applied with metadata := applied.metadata.insertAll document.metadata.entries }

theorem get?_described (document : Document) (id : ShapeId) :
    document.described.get? id = (document.readProgress.model.get? id).map
      (Shape.behind document.applications id) :=
  Model.get?_behind document.applications document.readProgress.model id

theorem get?_metadata_described (document : Document) (key : String) :
    document.described.metadata.get? key = document.metadata.get? key := by
  rw [described, Model.metadata_behind, metadata_readProgress]
  exact SortedMap.get?_ofList document.metadata.distinct key

section Described

variable {document : Document} (hdistinct : DistinctAddresses document.applications)

include hdistinct

/-- A trait behind all applications of the document. -/
theorem get?_behind_applications (id : ShapeId) (member? : Option String) (traits : TraitMap)
    (trait : String) :
    (traits.behind document.applications id member?).get? trait =
      (document.applied? id member? trait).or (traits.get? trait) := by
  rw [TraitMap.get?_behind hdistinct, appliedTrait?_applications]

theorem memberOf_iff {container : ShapeId} {entry : String × MemberDefinition} {member : Member} :
    document.MemberOf container entry member ↔
      member = (entry.2.member container entry.1).behind document.applications container := by
  have htraits := get?_behind_applications hdistinct container (some entry.1) entry.2.traits.toMap
  simp only [TraitList.get?_toMap] at htraits
  constructor
  · intro h
    obtain ⟨hname, hid, htarget, hlook⟩ := h
    refine Member.ext hid hname htarget ?_
    exact SortedMap.ext_get? fun trait => (hlook trait).trans (htraits trait).symm
  · rintro rfl
    exact ⟨rfl, rfl, rfl, htraits⟩

theorem forall₂_memberOf_iff {container : ShapeId} {entries : List (String × MemberDefinition)}
    {members : List Member} :
    List.Forall₂ (document.MemberOf container) entries members ↔
      members = entries.map fun entry =>
        (entry.2.member container entry.1).behind document.applications container := by
  have hrel : document.MemberOf container = fun entry member => True ∧
      member = (entry.2.member container entry.1).behind document.applications container := by
    funext entry member
    rw [true_and, memberOf_iff hdistinct]
  rw [hrel, forall₂_and_eq_iff]
  exact and_iff_right fun _ _ => trivial

theorem shapeOf_iff {id : ShapeId} {definition : Definition} {type : ShapeType}
    (htype : definition.body.shapeType? = some type) {shape : Shape} :
    document.ShapeOf id definition shape ↔
      shape = (definition.shape id type).behind document.applications id := by
  have htraits := get?_behind_applications hdistinct id none
    (definition.body.addTraits definition.traits.toMap)
  simp only [Definition.get?_addTraits] at htraits
  have hmembers : ((definition.shape id type).behind document.applications id).members =
      definition.body.memberDefinitions.map fun entry =>
        (entry.2.member id entry.1).behind document.applications id :=
    List.map_map
  constructor
  · intro h
    obtain ⟨hid, hname, hlist, hlook⟩ := h
    rw [← Body.name_shapeType htype, ShapeType.name_inj] at hname
    rw [forall₂_memberOf_iff hdistinct, ← hmembers] at hlist
    refine Shape.ext hid hname hlist ?_
    exact SortedMap.ext_get? fun trait => (hlook trait).trans (htraits trait).symm
  · rintro rfl
    exact ⟨rfl, Body.name_shapeType htype, (forall₂_memberOf_iff hdistinct).mpr hmembers, htraits⟩

theorem preludeShape_iff {shape found : Shape} (hmem : shape ∈ Prelude.shapes) :
    document.PreludeShape shape found ↔
      found = shape.behind document.applications shape.id := by
  have htraits := get?_behind_applications hdistinct shape.id none shape.traits
  have hmembers : (shape.behind document.applications shape.id).members = shape.members := by
    rw [Shape.behind, Prelude.members_of_mem_shapes hmem, List.map_nil]
  constructor
  · intro h
    obtain ⟨hid, htype, hlist, hlook⟩ := h
    refine Shape.ext hid htype (hlist.trans hmembers.symm) ?_
    exact SortedMap.ext_get? fun trait => (hlook trait).trans (htraits trait).symm
  · rintro rfl
    exact ⟨rfl, rfl, hmembers, htraits⟩

/-- A document describes one model. -/
theorem describes_iff {model : Model} : document.Describes model ↔ model = document.described := by
  constructor
  · intro h
    obtain ⟨hids, hprelude, hdefinitions, hmetadata⟩ := h
    refine Model.ext_get? (fun id => ?_) fun key => ?_
    · rw [get?_described]
      by_cases hmem : id ∈ Prelude.ids
      · obtain ⟨shape, hshape, rfl⟩ := Prelude.mem_ids_iff.mp hmem
        obtain ⟨found, hget, hfound⟩ := hprelude shape hshape
        rw [get?_readProgress_of_mem hmem, Prelude.get?_model_iff.mpr ⟨hshape, rfl⟩, hget,
          Option.map_some, (preludeShape_iff hdistinct hshape).mp hfound]
      · cases hread : document.readProgress.model.get? id with
        | some shape =>
          obtain ⟨definition, type, hget, htype, rfl⟩ :=
            (get?_readProgress_of_not_mem hmem).mp hread
          have htag := Body.tag_ne_apply_iff.mpr ⟨type, htype⟩
          obtain ⟨found, hfound, hshape⟩ := hdefinitions id definition hget htag hmem
          rw [hfound, Option.map_some, (shapeOf_iff hdistinct htype).mp hshape]
        | none =>
          rw [Option.map_none, ← Option.not_isSome_iff_eq_none]
          intro hsome
          obtain ⟨definition, hget, htag⟩ := ((hids id).mp hsome).resolve_left hmem
          obtain ⟨type, htype⟩ := Body.tag_ne_apply_iff.mp htag
          have hshape := (get?_readProgress_of_not_mem hmem).mpr
            ⟨definition, type, hget, htype, rfl⟩
          rw [hshape] at hread
          cases hread
    · rw [get?_metadata_described, hmetadata]
  · rintro rfl
    refine ⟨fun id => ?_, fun shape hshape => ?_, fun id definition hget htag hmem => ?_,
      get?_metadata_described document⟩
    · rw [Model.contains, get?_described, Option.isSome_map]
      by_cases hmem : id ∈ Prelude.ids
      · have hcontains := Prelude.contains_model_iff.mpr hmem
        rw [get?_readProgress_of_mem hmem]
        exact iff_of_true hcontains (.inl hmem)
      · rw [Option.isSome_iff_exists, or_iff_right hmem]
        simp only [get?_readProgress_of_not_mem hmem, Body.tag_ne_apply_iff]
        constructor
        · intro h
          obtain ⟨_, definition, type, hget, htype, rfl⟩ := h
          exact ⟨definition, hget, type, htype⟩
        · intro h
          obtain ⟨definition, hget, type, htype⟩ := h
          exact ⟨_, definition, type, hget, htype, rfl⟩
    · have hmem := Prelude.mem_ids_iff.mpr ⟨shape, hshape, rfl⟩
      refine ⟨_, ?_, (preludeShape_iff hdistinct hshape).mpr rfl⟩
      rw [get?_described, get?_readProgress_of_mem hmem,
        Prelude.get?_model_iff.mpr ⟨hshape, rfl⟩, Option.map_some]
    · obtain ⟨type, htype⟩ := Body.tag_ne_apply_iff.mp htag
      refine ⟨_, ?_, (shapeOf_iff hdistinct htype).mpr rfl⟩
      rw [get?_described,
        (get?_readProgress_of_not_mem hmem).mpr ⟨definition, type, hget, htype, rfl⟩,
        Option.map_some]

end Described

/-! ## The conversion -/

theorem foldl_insertMetadata (model : Model) (entries : List (String × Json)) :
    entries.foldl (fun model entry => model.insertMetadata entry.1 entry.2) model =
      { model with metadata := model.metadata.insertAll entries } := by
  induction entries generalizing model with
  | nil => rfl
  | cons entry rest ih =>
    rw [List.foldl_cons, ih]
    rfl

theorem foldlM_add_entries_iff {document : Document} {progress : Progress} :
    document.shapes.entries.foldlM Progress.add ⟨Prelude.model, []⟩ = .ok progress ↔
      (∀ entry ∈ document.shapes.entries, Readable entry) ∧ progress = document.readProgress :=
  foldlM_add_eq_ok_iff document.shapes.distinct fun _ _ => Prelude.contains_model_iff

theorem foldlM_applyTo_applications_iff {document : Document} {after : Model} :
    document.readProgress.applies.foldlM applyTo document.readProgress.model = .ok after ↔
      (∀ application ∈ document.applications,
        document.readProgress.model.Addresses application.1) ∧
      after = document.readProgress.model.behind document.applications := by
  rw [readProgress_applies]
  exact foldlM_applyTo_eq_ok_iff document.namesDistinct_readProgress

theorem convertible_iff {document : Document} :
    document.Convertible ↔ supportsVersion document.version = true ∧
      (∀ entry ∈ document.shapes.entries, Readable entry) ∧
      ∀ application ∈ document.applications,
        document.readProgress.model.Addresses application.1 := by
  rw [supportsVersion_iff, addresses_applications_iff]
  exact ⟨fun h => ⟨h.version, h.readable, h.applies⟩, fun h => ⟨h.1, h.2.1, h.2.2⟩⟩

/-- The steps of the conversion give the described model or fail. -/
theorem toModel_eq_ok_iff_described {document : Document} {model : Model} :
    document.toModel = .ok model ↔ document.Convertible ∧ model = document.described := by
  rw [convertible_iff, toModel]
  by_cases hversion : supportsVersion document.version = true
  · simp only [hversion, Bool.not_true, Bool.false_eq_true, if_false, true_and,
      foldl_insertMetadata, bind_eq_ok_iff, foldlM_add_entries_iff]
    constructor
    · intro h
      obtain ⟨_, ⟨hreadable, rfl⟩, applied, happlied, h⟩ := h
      obtain ⟨haddresses, rfl⟩ := foldlM_applyTo_applications_iff.mp happlied
      cases h
      exact ⟨⟨hreadable, haddresses⟩, rfl⟩
    · intro h
      obtain ⟨⟨hreadable, haddresses⟩, rfl⟩ := h
      have happlied := foldlM_applyTo_applications_iff.mpr ⟨haddresses, rfl⟩
      exact ⟨document.readProgress, ⟨hreadable, rfl⟩, _, happlied, rfl⟩
  · rw [Bool.not_eq_true] at hversion
    rw [hversion]
    constructor
    · intro h
      cases h
    · intro h
      obtain ⟨⟨h, _⟩, _⟩ := h
      cases h

/-- The conversion succeeds exactly for the documents that can be converted, and gives the one model that
the document describes. -/
theorem toModel_eq_ok_iff (document : Document) :
    ((∃ model, document.toModel = .ok model) ↔ document.Convertible) ∧
      ∀ model, document.toModel = .ok model ↔ document.Convertible ∧ document.Describes model := by
  constructor
  · simp only [toModel_eq_ok_iff_described]
    exact ⟨fun ⟨_, h, _⟩ => h, fun h => ⟨document.described, h, rfl⟩⟩
  · intro model
    rw [toModel_eq_ok_iff_described]
    refine and_congr_right fun hconvertible => ?_
    have hkeys (entry) (hmem : entry ∈ document.shapes.entries) :=
      (hconvertible.readable entry hmem).key
    exact (describes_iff (distinctAddresses_applications hkeys)).symm

end SmithyKotlin.Document
