import SmithyKotlin.Document.Conversion
import SmithyKotlin.Proofs.Collections.SortedMap
import SmithyKotlin.Proofs.Model.WellKeyed
import SmithyKotlin.Proofs.Outcome

/-!
# Applying traits

* `Model.withTraits`: the model behind one application.  It changes the traits of a shape or of one of its members;
  ids, types and the names and targets of members stay, and so do all other shapes.
* `Model.behind`: the model behind several, and `TraitMap.get?_behind`, what a trait is there.  As long as no two
  address the same thing (`DistinctAddresses`) their order does not matter.
* `Document.applyTo_eq_ok_iff` and `Document.foldlM_applyTo_eq_ok_iff`: they succeed when each one addresses
  something.

Which applications a document has is left to `Proofs/Document/Conversion`.
-/

namespace SmithyKotlin

/-- Traits with the id of the shape or member that they are for. -/
abbrev Application := ShapeId × TraitMap

/-- Whether an application is for the shape, or for the member of it with the given name. -/
def Application.IsFor (application : Application) (id : ShapeId) (member? : Option String) : Prop :=
  application.1.container = id ∧ application.1.member? = member?

instance (application : Application) (id : ShapeId) (member? : Option String) :
    Decidable (application.IsFor id member?) :=
  inferInstanceAs (Decidable (_ ∧ _))

/-- Traits of a shape or member behind some applications. -/
def TraitMap.behind (applications : List Application) (id : ShapeId) (member? : Option String)
    (traits : TraitMap) : TraitMap :=
  applications.foldl (fun traits application =>
    if application.IsFor id member? then traits.merge application.2 else traits) traits

/-- The value that applications give to a trait. -/
def appliedTrait? (applications : List Application) (id : ShapeId) (member? : Option String)
    (trait : String) : Option Json :=
  applications.findSome? fun application =>
    if application.IsFor id member? then application.2.get? trait else none

/-- No two of the applications are for the same thing. -/
def DistinctAddresses (applications : List Application) : Prop :=
  applications.Pairwise fun a b => ∀ id member?, a.IsFor id member? → ¬ b.IsFor id member?

theorem appliedTrait?_eq_none {applications : List Application} {id : ShapeId}
    {member? : Option String} {trait : String}
    (h : ∀ application ∈ applications, ¬ application.IsFor id member?) :
    appliedTrait? applications id member? trait = none := by
  rw [appliedTrait?, List.findSome?_eq_none_iff]
  intro application hmem
  rw [if_neg (h application hmem)]

namespace TraitMap

theorem behind_cons_of_isFor {application : Application} (rest : List Application) {id : ShapeId}
    {member? : Option String} (hfor : application.IsFor id member?) (traits : TraitMap) :
    traits.behind (application :: rest) id member? =
      TraitMap.behind rest id member? (traits.merge application.2) := by
  rw [behind, List.foldl_cons, if_pos hfor]
  rfl

theorem behind_cons_of_not_isFor {application : Application} (rest : List Application)
    {id : ShapeId} {member? : Option String} (hfor : ¬ application.IsFor id member?)
    (traits : TraitMap) :
    traits.behind (application :: rest) id member? = traits.behind rest id member? := by
  rw [behind, List.foldl_cons, if_neg hfor]
  rfl

/-- An applied trait hides the one from before. -/
theorem get?_behind {applications : List Application}
    (hdistinct : DistinctAddresses applications) (id : ShapeId) (member? : Option String)
    (traits : TraitMap) (trait : String) :
    (traits.behind applications id member?).get? trait =
      (appliedTrait? applications id member? trait).or (traits.get? trait) := by
  induction applications generalizing traits with
  | nil => rfl
  | cons application rest ih =>
    obtain ⟨hhead, htail⟩ := List.pairwise_cons.mp hdistinct
    by_cases hfor : application.IsFor id member?
    · have hrest : appliedTrait? rest id member? trait = none :=
        appliedTrait?_eq_none fun other hmem => hhead other hmem id member? hfor
      rw [behind_cons_of_isFor rest hfor, ih htail, hrest, Option.none_or, SortedMap.get?_merge,
        appliedTrait?, List.findSome?_cons, if_pos hfor]
      cases application.2.get? trait with
      | some value => rfl
      | none =>
        change _ = (appliedTrait? rest id member? trait).or _
        rw [hrest]
    · rw [behind_cons_of_not_isFor rest hfor, ih htail, appliedTrait?, appliedTrait?,
        List.findSome?_cons, if_neg hfor]

end TraitMap

/-! ## Shapes -/

attribute [ext] Member Shape

/-- The member of the shape with the id behind some applications. -/
def Member.behind (applications : List Application) (id : ShapeId) (member : Member) : Member :=
  { member with traits := member.traits.behind applications id (some member.name) }

/-- An application that is for no member at all leaves every member as it is. -/
theorem Member.behind_cons_of_not_isFor {application : Application} (rest : List Application)
    {id : ShapeId} (hfor : ∀ name, ¬ application.IsFor id (some name)) :
    Member.behind (application :: rest) id = Member.behind rest id := by
  funext member
  rw [behind, behind, TraitMap.behind_cons_of_not_isFor rest (hfor member.name)]

namespace Shape

def memberNames (shape : Shape) : List String := shape.members.map (·.name)

/-- The shape with more traits, of itself or of the member with the name. -/
def withTraits (shape : Shape) (member? : Option String) (traits : TraitMap) : Shape :=
  match member? with
  | none => { shape with traits := shape.traits.merge traits }
  | some name => { shape with members := shape.members.map fun member =>
      if member.name = name then { member with traits := member.traits.merge traits } else member }

/-- The shape behind some applications. -/
def behind (applications : List Application) (id : ShapeId) (shape : Shape) : Shape :=
  { shape with
    traits := shape.traits.behind applications id none
    members := shape.members.map (Member.behind applications id) }

theorem memberNames_withTraits (shape : Shape) (member? : Option String) (traits : TraitMap) :
    (shape.withTraits member? traits).memberNames = shape.memberNames := by
  cases member? with
  | none => rfl
  | some name =>
    rw [memberNames, memberNames, withTraits, List.map_map]
    refine List.map_congr_left fun member _ => ?_
    rw [Function.comp_apply]
    split <;> rfl

theorem behind_nil (id : ShapeId) (shape : Shape) : shape.behind [] id = shape := by
  have hmembers : shape.members.map (Member.behind [] id) = shape.members := List.map_id _
  rw [behind, hmembers]
  rfl

/-- An application for another shape or its members is not seen. -/
theorem behind_cons_of_ne {application : Application} (rest : List Application) {id : ShapeId}
    (hne : application.1.container ≠ id) (shape : Shape) :
    shape.behind (application :: rest) id = shape.behind rest id := by
  have hfor (member? : Option String) : ¬ application.IsFor id member? := fun h => hne h.1
  rw [behind, behind, Member.behind_cons_of_not_isFor rest fun name => hfor (some name),
    TraitMap.behind_cons_of_not_isFor rest (hfor none)]

theorem behind_cons_of_isFor {application : Application} (rest : List Application) {id : ShapeId}
    (hfor : application.IsFor id none) (shape : Shape) :
    shape.behind (application :: rest) id = (shape.withTraits none application.2).behind rest id := by
  have hmember (name : String) : ¬ application.IsFor id (some name) := by
    intro h
    cases hfor.2.symm.trans h.2
  rw [behind, Member.behind_cons_of_not_isFor rest hmember, TraitMap.behind_cons_of_isFor rest hfor]
  rfl

theorem behind_cons_of_isFor_member {application : Application} (rest : List Application)
    {id : ShapeId} {name : String} (hfor : application.IsFor id (some name)) (shape : Shape) :
    shape.behind (application :: rest) id =
      (shape.withTraits (some name) application.2).behind rest id := by
  have hshape : ¬ application.IsFor id none := by
    intro h
    cases hfor.2.symm.trans h.2
  have hmembers : shape.members.map (Member.behind (application :: rest) id) =
      (shape.withTraits (some name) application.2).members.map (Member.behind rest id) := by
    rw [withTraits, List.map_map]
    refine List.map_congr_left fun member _ => ?_
    rw [Function.comp_apply]
    by_cases hname : member.name = name
    · subst hname
      rw [if_pos rfl, Member.behind, TraitMap.behind_cons_of_isFor rest hfor]
      rfl
    · have hother : ¬ application.IsFor id (some member.name) := by
        intro h
        exact hname (Option.some.inj (h.2.symm.trans hfor.2))
      rw [if_neg hname, Member.behind, TraitMap.behind_cons_of_not_isFor rest hother]
      rfl
  rw [behind, hmembers, TraitMap.behind_cons_of_not_isFor rest hshape]
  rfl

/-- An application for the shape or a member of it comes before the rest. -/
theorem behind_cons_of_container (application : Application) (rest : List Application)
    (shape : Shape) :
    shape.behind (application :: rest) application.1.container =
      (shape.withTraits application.1.member? application.2).behind rest
        application.1.container := by
  cases hmember : application.1.member? with
  | none => exact behind_cons_of_isFor rest ⟨rfl, hmember⟩ shape
  | some name => exact behind_cons_of_isFor_member rest ⟨rfl, hmember⟩ shape

theorem update_eq {name : String} {f : TraitMap → TraitMap} {members : List Member}
    (hnodup : (members.map (·.name)).Nodup) :
    mapMember?.update name f members =
      if name ∈ members.map (·.name) then
        some (members.map fun member =>
          if member.name = name then { member with traits := f member.traits } else member)
      else none := by
  induction members with
  | nil => rfl
  | cons member rest ih =>
    rw [List.map_cons, List.nodup_cons] at hnodup
    rw [mapMember?.update]
    by_cases hname : member.name = name
    · have hrest : rest.map (fun member =>
          if member.name = name then { member with traits := f member.traits } else member) = rest := by
        refine (List.map_congr_left fun other hmem => ?_).trans (List.map_id rest)
        refine if_neg fun heq => hnodup.1 ?_
        rw [hname, ← heq]
        exact List.mem_map_of_mem hmem
      rw [if_pos hname, if_pos (by simp [hname]), List.map_cons, if_pos hname, hrest]
    · rw [if_neg hname, ih hnodup.2]
      by_cases hmem : name ∈ rest.map (·.name)
      · have hin : name ∈ (member :: rest).map (·.name) := List.mem_cons_of_mem _ hmem
        rw [if_pos hmem, if_pos hin, List.map_cons, if_neg hname]
        rfl
      · have hnot : name ∉ (member :: rest).map (·.name) := by
          rw [List.map_cons, List.mem_cons]
          exact not_or.mpr ⟨Ne.symm hname, hmem⟩
        rw [if_neg hmem, if_neg hnot]
        rfl

theorem mapMember?_eq {shape : Shape} (hnodup : shape.memberNames.Nodup) (name : String)
    (traits : TraitMap) :
    shape.mapMember? name (·.merge traits) =
      if name ∈ shape.memberNames then some (shape.withTraits (some name) traits) else none := by
  rw [mapMember?, update_eq hnodup, ← memberNames]
  split <;> rfl

end Shape

/-! ## Models -/

namespace Model

/-- The id belongs to a shape of the model, and to a member of it if it names one. -/
def Addresses (model : Model) (id : ShapeId) : Prop :=
  ∃ shape, model.get? id.container = some shape ∧ ∀ name ∈ id.member?, name ∈ shape.memberNames

/-- No shape has two members of one name. -/
def NamesDistinct (model : Model) : Prop :=
  ∀ id shape, model.get? id = some shape → shape.memberNames.Nodup

/-- A model is known by its shapes and its metadata. -/
theorem ext_get? {a b : Model} (hshapes : ∀ id, a.get? id = b.get? id)
    (hmetadata : ∀ key, a.metadata.get? key = b.metadata.get? key) : a = b := by
  obtain ⟨shapesA, metadataA⟩ := a
  obtain ⟨shapesB, metadataB⟩ := b
  have hs : shapesA = shapesB := SortedMap.ext_get? fun key => hshapes ⟨key⟩
  have hm : metadataA = metadataB := SortedMap.ext_get? hmetadata
  rw [hs, hm]

/-- The model behind one application. -/
def withTraits (model : Model) (id : ShapeId) (traits : TraitMap) (shape : Shape) : Model :=
  { model with
    shapes := model.shapes.insert id.container.text (shape.withTraits id.member? traits) }

theorem get?_withTraits (model : Model) (id : ShapeId) (traits : TraitMap) (shape : Shape)
    (query : ShapeId) :
    (model.withTraits id traits shape).get? query =
      if id.container = query then some (shape.withTraits id.member? traits)
      else model.get? query :=
  get?_replace model id.container (shape.withTraits id.member? traits) query

/-- Applying traits succeeds where the id addresses something. -/
theorem applyTraits_eq_ok_iff {model after : Model} {id : ShapeId} {traits : TraitMap}
    (hnames : model.NamesDistinct) :
    model.applyTraits id traits = .ok after ↔
      ∃ shape, model.get? id.container = some shape ∧ (∀ name ∈ id.member?, name ∈ shape.memberNames) ∧
        after = model.withTraits id traits shape := by
  rw [applyTraits]
  cases hget : model.get? id.container with
  | none => simp
  | some shape =>
    have hnodup := hnames _ shape hget
    cases hmember : id.member? with
    | none =>
      simp only [Option.bind_some, Except.ok.injEq, Option.some.injEq, exists_eq_left',
        withTraits, Shape.withTraits, hmember]
      simp [eq_comm]
    | some name =>
      simp only [Option.bind_some, Shape.mapMember?_eq hnodup, Option.some.injEq, exists_eq_left',
        withTraits, hmember, Option.mem_some_iff, forall_eq']
      by_cases hmem : name ∈ shape.memberNames
      · rw [if_pos hmem]
        simp [hmem, eq_comm]
      · rw [if_neg hmem]
        simp [hmem]

/-- Applying traits keeps the names of all members. -/
theorem map_memberNames_withTraits {model : Model} {id : ShapeId} {shape : Shape}
    (traits : TraitMap) (hget : model.get? id.container = some shape) (query : ShapeId) :
    ((model.withTraits id traits shape).get? query).map Shape.memberNames =
      (model.get? query).map Shape.memberNames := by
  rw [get?_withTraits]
  by_cases hquery : id.container = query
  · rw [if_pos hquery, ← hquery, hget, Option.map_some, Option.map_some,
      Shape.memberNames_withTraits]
  · rw [if_neg hquery]

theorem namesDistinct_iff {model : Model} :
    model.NamesDistinct ↔ ∀ id, ∀ names ∈ (model.get? id).map Shape.memberNames, names.Nodup := by
  simp only [NamesDistinct, Option.mem_def, Option.map_eq_some_iff, forall_exists_index, and_imp,
    forall_apply_eq_imp_iff₂]

theorem addresses_iff {model : Model} {id : ShapeId} :
    model.Addresses id ↔ ∃ names ∈ (model.get? id.container).map Shape.memberNames,
      ∀ name ∈ id.member?, name ∈ names := by
  simp only [Addresses, Option.mem_def, Option.map_eq_some_iff, exists_exists_and_eq_and]

theorem NamesDistinct.withTraits {model : Model} (hnames : model.NamesDistinct) {id : ShapeId}
    {shape : Shape} (traits : TraitMap) (hget : model.get? id.container = some shape) :
    (model.withTraits id traits shape).NamesDistinct := by
  rw [namesDistinct_iff] at hnames ⊢
  simp only [map_memberNames_withTraits traits hget]
  exact hnames

/-- Behind an application the same ids address something. -/
theorem addresses_withTraits {model : Model} {id : ShapeId} {shape : Shape} (traits : TraitMap)
    (hget : model.get? id.container = some shape) (other : ShapeId) :
    (model.withTraits id traits shape).Addresses other ↔ model.Addresses other := by
  rw [addresses_iff, addresses_iff, map_memberNames_withTraits traits hget]

/-- The model with every shape behind some applications. -/
def behind (applications : List Application) (model : Model) : Model :=
  { model with
    shapes := model.shapes.mapValues fun key => Shape.behind applications ⟨key⟩ }

theorem get?_behind (applications : List Application) (model : Model) (id : ShapeId) :
    (model.behind applications).get? id =
      (model.get? id).map (Shape.behind applications id) :=
  SortedMap.get?_mapValues _ _ _

theorem metadata_behind (applications : List Application) (model : Model) :
    (model.behind applications).metadata = model.metadata := rfl

theorem behind_nil (model : Model) : model.behind [] = model := by
  refine ext_get? (fun id => ?_) fun _ => rfl
  rw [get?_behind, funext (Shape.behind_nil id), Option.map_id_fun']
  rfl

/-- The first application comes before the rest. -/
theorem behind_cons {model : Model} {application : Application} {shape : Shape}
    (rest : List Application) (hget : model.get? application.1.container = some shape) :
    model.behind (application :: rest) =
      (model.withTraits application.1 application.2 shape).behind rest := by
  refine ext_get? (fun id => ?_) fun _ => rfl
  rw [get?_behind, get?_behind, get?_withTraits]
  by_cases hid : application.1.container = id
  · subst hid
    rw [if_pos rfl, hget, Option.map_some, Option.map_some, Shape.behind_cons_of_container]
  · rw [if_neg hid, funext (Shape.behind_cons_of_ne rest hid)]

end Model

namespace Document

theorem applyTo_eq_ok_iff {model after : Model} {application : Application} :
    applyTo model application = .ok after ↔
      model.applyTraits application.1 application.2 = .ok after := by
  show (model.applyTraits application.1 application.2).mapError _ = .ok after ↔ _
  cases model.applyTraits application.1 application.2 <;> simp [Except.mapError]

/-- Applying all traits succeeds when each application addresses something. -/
theorem foldlM_applyTo_eq_ok_iff {applications : List Application} {model after : Model}
    (hnames : model.NamesDistinct) :
    applications.foldlM applyTo model = .ok after ↔
      (∀ application ∈ applications, model.Addresses application.1) ∧
        after = model.behind applications := by
  induction applications generalizing model with
  | nil =>
    rw [List.foldlM_nil, Model.behind_nil]
    constructor
    · intro h
      cases h
      exact ⟨fun application hmem => absurd hmem List.not_mem_nil, rfl⟩
    · intro h
      obtain ⟨_, rfl⟩ := h
      rfl
  | cons application rest ih =>
    rw [List.foldlM_cons, bind_eq_ok_iff, List.forall_mem_cons]
    simp only [applyTo_eq_ok_iff, Model.applyTraits_eq_ok_iff hnames]
    constructor
    · intro h
      obtain ⟨_, ⟨shape, hget, hmember, rfl⟩, hrest⟩ := h
      obtain ⟨hall, rfl⟩ := (ih (hnames.withTraits application.2 hget)).mp hrest
      refine ⟨⟨⟨shape, hget, hmember⟩, fun other hmem => ?_⟩, (Model.behind_cons rest hget).symm⟩
      exact (Model.addresses_withTraits application.2 hget other.1).mp (hall other hmem)
    · intro h
      obtain ⟨⟨⟨shape, hget, hmember⟩, hall⟩, rfl⟩ := h
      refine ⟨_, ⟨shape, hget, hmember, rfl⟩, (ih (hnames.withTraits application.2 hget)).mpr
        ⟨fun other hmem => ?_, Model.behind_cons rest hget⟩⟩
      exact (Model.addresses_withTraits application.2 hget other.1).mpr (hall other hmem)

end Document

end SmithyKotlin
