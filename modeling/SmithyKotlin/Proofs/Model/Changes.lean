import SmithyKotlin.Proofs.Document.Applying
import SmithyKotlin.Proofs.Model.WellKeyed

/-!
# Models built step by step

A model grows by insertions, by traits applied to what it holds and by entries of its metadata (`Operation`).  Each
step changes the model in place, so it leaves a model behind also where it fails.

* `Model.changeTraits_eq`: adding traits in place is `Model.applyTraits`, and a failure leaves the model as it was.
* `Shape.TraitsAdded`: traits are added at one place or nowhere.
* `Operation.get?_run`: what is stored under an id comes from the steps that concern this id alone.
* `Model.run_replays` says this of every run that starts with nothing.
-/

namespace SmithyKotlin

namespace Shape

/-! ## Traits for a shape or a member -/

/-- The shape with more traits, of itself or of the first member with the name; `none` without such a member. -/
def addTraits? (shape : Shape) (member? : Option String) (traits : TraitMap) : Option Shape :=
  match member? with
  | none => some { shape with traits := shape.traits.merge traits }
  | some name => shape.mapMember? name (·.merge traits)

/-- Traits are added to a shape, or to the first of its members with some name: those added hide the ones from
before, and nothing else is changed. -/
inductive TraitsAdded (traits : TraitMap) (shape : Shape) : Option String → Shape → Prop where
  | toShape {union : TraitMap}
      (hunion : ∀ trait, union.get? trait = (traits.get? trait).or (shape.traits.get? trait)) :
      TraitsAdded traits shape none { shape with traits := union }
  | toMember {before behind : List Member} {member : Member} {union : TraitMap}
      (hmembers : shape.members = before ++ member :: behind)
      (hfirst : ∀ other ∈ before, other.name ≠ member.name)
      (hunion : ∀ trait, union.get? trait = (traits.get? trait).or (member.traits.get? trait)) :
      TraitsAdded traits shape (some member.name)
        { shape with members := before ++ { member with traits := union } :: behind }

theorem TraitsAdded.id_eq {traits : TraitMap} {shape changed : Shape} {member? : Option String}
    (hadded : shape.TraitsAdded traits member? changed) : changed.id = shape.id := by
  cases hadded <;> rfl

/-- The first member with the name is the one that gets other traits, also among members of one name. -/
theorem update_of_mem {name : String} {members : List Member} (f : TraitMap → TraitMap)
    (hmem : name ∈ members.map (·.name)) :
    ∃ before member behind, members = before ++ member :: behind ∧ member.name = name ∧
      (∀ other ∈ before, other.name ≠ name) ∧
      mapMember?.update name f members =
        some (before ++ { member with traits := f member.traits } :: behind) := by
  induction members with
  | nil => cases hmem
  | cons member rest ih =>
    rw [mapMember?.update]
    by_cases hname : member.name = name
    · exact ⟨[], member, rest, rfl, hname, List.forall_mem_nil _, if_pos hname⟩
    · rw [List.map_cons, List.mem_cons] at hmem
      have hrest := hmem.resolve_left (Ne.symm hname)
      obtain ⟨before, found, behind, rfl, hfound, hfirst, hupdate⟩ := ih hrest
      refine ⟨member :: before, found, behind, rfl, hfound, ?_, ?_⟩
      · exact List.forall_mem_cons.mpr ⟨hname, hfirst⟩
      · rw [if_neg hname, hupdate]
        rfl

theorem update_of_not_mem {name : String} {members : List Member} (f : TraitMap → TraitMap)
    (hnot : name ∉ members.map (·.name)) : mapMember?.update name f members = none := by
  induction members with
  | nil => rfl
  | cons member rest ih =>
    rw [List.map_cons, List.mem_cons, not_or] at hnot
    obtain ⟨hname, hrest⟩ := hnot
    rw [mapMember?.update, if_neg (Ne.symm hname), ih hrest]
    rfl

theorem addTraits?_of_mem {shape : Shape} {member? : Option String} (traits : TraitMap)
    (hmember : ∀ name ∈ member?, name ∈ shape.memberNames) :
    ∃ changed, shape.addTraits? member? traits = some changed ∧
      shape.TraitsAdded traits member? changed := by
  cases member? with
  | none => exact ⟨_, rfl, .toShape fun trait => SortedMap.get?_merge _ _ trait⟩
  | some name =>
    obtain ⟨before, member, behind, hmembers, rfl, hfirst, hupdate⟩ :=
      update_of_mem (·.merge traits) (hmember name rfl)
    refine ⟨_, ?_, .toMember hmembers hfirst fun trait => SortedMap.get?_merge _ _ trait⟩
    rw [addTraits?, mapMember?, hupdate]
    rfl

theorem addTraits?_of_not_mem {shape : Shape} {member? : Option String} (traits : TraitMap)
    (hmember : ¬ ∀ name ∈ member?, name ∈ shape.memberNames) :
    shape.addTraits? member? traits = none := by
  cases member? with
  | none => exact absurd (fun name hname => nomatch hname) hmember
  | some name =>
    have hnot : name ∉ shape.memberNames := by
      intro hmem
      refine hmember fun other hother => ?_
      cases hother
      exact hmem
    rw [addTraits?, mapMember?, update_of_not_mem _ hnot]
    rfl

end Shape

namespace Model

/-! ## Changes in place -/

/-- A change of a model.  What has been changed before a failure stays changed. -/
abbrev Change := EStateM CodegenError Model

/-- Adds traits to a shape, or to the member that the id names, in place. -/
def changeTraits (id : ShapeId) (traits : TraitMap) : Change Unit := do
  let some shape := (← get).get? id.container | throw (.unresolvedShape id)
  match id.member? with
  | none =>
    modify (·.replace id.container { shape with traits := shape.traits.merge traits })
  | some name =>
    let some changed := shape.mapMember? name (·.merge traits) | throw (.unresolvedShape id)
    modify (·.replace id.container changed)

theorem Change.get_bind (next : Model → Change Unit) (model : Model) :
    (get >>= next) model = next model model := rfl

/-- A change in place comes to the same as a new model, and a failure changes nothing. -/
theorem changeTraits_eq (model : Model) (id : ShapeId) (traits : TraitMap) :
    changeTraits id traits model =
      match model.applyTraits id traits with
      | .ok after => .ok () after
      | .error error => .error error model := by
  rw [changeTraits, Change.get_bind, applyTraits]
  cases hget : model.get? id.container with
  | none => rfl
  | some shape =>
    cases hmember : id.member? with
    | none => rfl
    | some name =>
      cases hchanged : shape.mapMember? name (·.merge traits) with
      | none =>
        simp only [Option.bind_some, hchanged]
        rfl
      | some changed =>
        simp only [Option.bind_some, hchanged]
        rfl

theorem applyTraits_eq (model : Model) (id : ShapeId) (traits : TraitMap) :
    model.applyTraits id traits =
      match (model.get? id.container).bind (·.addTraits? id.member? traits) with
      | some changed => .ok (model.replace id.container changed)
      | none => .error (.unresolvedShape id) := rfl

theorem applyTraits_of_addresses {model : Model} {id : ShapeId} (traits : TraitMap)
    (haddresses : model.Addresses id) :
    ∃ shape changed, model.get? id.container = some shape ∧
      shape.TraitsAdded traits id.member? changed ∧
      model.applyTraits id traits = .ok (model.replace id.container changed) := by
  obtain ⟨shape, hget, hmember⟩ := haddresses
  obtain ⟨changed, hchanged, hadded⟩ := Shape.addTraits?_of_mem traits hmember
  refine ⟨shape, changed, hget, hadded, ?_⟩
  rw [applyTraits_eq, hget, Option.bind_some, hchanged]

theorem applyTraits_of_not_addresses {model : Model} {id : ShapeId} (traits : TraitMap)
    (haddresses : ¬ model.Addresses id) :
    model.applyTraits id traits = .error (.unresolvedShape id) := by
  rw [applyTraits_eq]
  cases hget : model.get? id.container with
  | none => rfl
  | some shape =>
    have hmember : ¬ ∀ name ∈ id.member?, name ∈ shape.memberNames :=
      fun hmember => haddresses ⟨shape, hget, hmember⟩
    rw [Option.bind_some, Shape.addTraits?_of_not_mem traits hmember]

end Model

/-! ## Sequences of operations -/

/-- What a model is built with. -/
inductive Operation where
  | insert (shape : Shape)
  | applyTraits (id : ShapeId) (traits : TraitMap)
  | insertMetadata (key : String) (value : Json)

namespace Operation

def perform : Operation → Model.Change Unit
  | insert shape => modify (·.insert shape)
  | applyTraits id traits => Model.changeTraits id traits
  | insertMetadata key value => modify (·.insertMetadata key value)

/-- The model that an operation leaves behind, also where it fails. -/
def after (operation : Operation) (model : Model) : Model :=
  match operation.perform model with
  | .ok _ after => after
  | .error _ after => after

/-- The model that several operations leave behind; one that fails does not stop those behind it. -/
def run (operations : List Operation) (model : Model) : Model :=
  operations.foldl (fun model operation => operation.after model) model

/-- Whether an operation inserts the shape with the id, or applies traits to it or to a member of it. -/
def concerns (id : ShapeId) : Operation → Bool
  | insert shape => shape.id = id
  | applyTraits target _ => target.container = id
  | insertMetadata _ _ => false

theorem after_applyTraits (id : ShapeId) (traits : TraitMap) (model : Model) :
    (applyTraits id traits).after model = (model.applyTraits id traits).toOption.getD model := by
  rw [after, perform, Model.changeTraits_eq]
  cases model.applyTraits id traits <;> rfl

/-! ### One operation -/

/-- Traits change what is stored for the shape they are for, and this from what was stored there. -/
theorem get?_after_applyTraits (id : ShapeId) (traits : TraitMap) (model : Model) (query : ShapeId) :
    ((applyTraits id traits).after model).get? query =
      if id.container = query then
        ((model.get? query).bind (·.addTraits? id.member? traits)).or (model.get? query)
      else model.get? query := by
  rw [after_applyTraits, Model.applyTraits_eq]
  cases hchanged : (model.get? id.container).bind (·.addTraits? id.member? traits) with
  | none =>
    split_ifs with hquery
    · rw [← hquery, hchanged]
      rfl
    · rfl
  | some changed =>
    show (model.replace id.container changed).get? query = _
    rw [Model.get?_replace]
    split_ifs with hquery
    · rw [← hquery, hchanged]
      rfl
    · rfl

theorem wellKeyed_after {model : Model} (hkeyed : model.WellKeyed) (operation : Operation) :
    (operation.after model).WellKeyed := by
  cases operation with
  | insert shape => exact hkeyed.insert shape
  | insertMetadata key value => exact hkeyed
  | applyTraits id traits =>
    rw [after_applyTraits]
    by_cases haddresses : model.Addresses id
    · obtain ⟨shape, changed, hget, hadded, happly⟩ := Model.applyTraits_of_addresses traits haddresses
      rw [happly]
      intro query found hfound
      change (model.replace id.container changed).get? query = some found at hfound
      rw [Model.get?_replace] at hfound
      split_ifs at hfound with hquery
      · cases hfound
        rw [hadded.id_eq, hkeyed _ _ hget, hquery]
      · exact hkeyed query found hfound
    · rw [Model.applyTraits_of_not_addresses traits haddresses]
      exact hkeyed

theorem get?_after_of_not_concerns {operation : Operation} {id : ShapeId}
    (hnot : operation.concerns id = false) (model : Model) :
    (operation.after model).get? id = model.get? id := by
  cases operation with
  | insert shape =>
    show (model.insert shape).get? id = _
    rw [Model.get?_insert, if_neg (of_decide_eq_false hnot)]
  | insertMetadata key value => rfl
  | applyTraits target traits =>
    rw [get?_after_applyTraits, if_neg (of_decide_eq_false hnot)]

/-- What an operation leaves stored under an id comes from what was stored there. -/
theorem get?_after_congr {a b : Model} {id : ShapeId} (hsame : a.get? id = b.get? id)
    (operation : Operation) : (operation.after a).get? id = (operation.after b).get? id := by
  cases operation with
  | insert shape =>
    show (a.insert shape).get? id = (b.insert shape).get? id
    rw [Model.get?_insert, Model.get?_insert, hsame]
  | insertMetadata key value => exact hsame
  | applyTraits target traits =>
    rw [get?_after_applyTraits, get?_after_applyTraits, hsame]

/-! ### Several operations -/

theorem wellKeyed_run {model : Model} (hkeyed : model.WellKeyed) (operations : List Operation) :
    (run operations model).WellKeyed := by
  induction operations generalizing model with
  | nil => exact hkeyed
  | cons operation rest ih => exact ih (wellKeyed_after hkeyed operation)

/-- Under an id stands what the operations that concern it put there. -/
theorem get?_run {a b : Model} {id : ShapeId} (hsame : a.get? id = b.get? id)
    (operations : List Operation) :
    (run operations a).get? id = (run (operations.filter (·.concerns id)) b).get? id := by
  induction operations generalizing a b with
  | nil => exact hsame
  | cons operation rest ih =>
    cases hconcerns : operation.concerns id with
    | true =>
      rw [List.filter_cons_of_pos hconcerns]
      exact ih (get?_after_congr hsame operation)
    | false =>
      rw [List.filter_cons_of_neg (Bool.not_eq_true _ ▸ hconcerns)]
      exact ih ((get?_after_of_not_concerns hconcerns a).trans hsame)

end Operation

/-- In a model built from nothing every shape stands under its own id, as the operations that concern this id
alone would leave it.  More traits change the traits of what they are for and nothing else, or, where there
is no such thing, nothing at all. -/
theorem Model.run_replays (operations : List Operation) :
    let model := Operation.run operations {}
    model.WellKeyed ∧
      (∀ id, model.get? id = (Operation.run (operations.filter (·.concerns id)) {}).get? id) ∧
      ∀ id traits,
        (model.Addresses id → ∃ shape changed after,
          model.get? id.container = some shape ∧ shape.TraitsAdded traits id.member? changed ∧
            model.applyTraits id traits = .ok after ∧ changeTraits id traits model = .ok () after ∧
            (∀ query, after.get? query =
              if id.container = query then some changed else model.get? query) ∧
            after.metadata = model.metadata) ∧
        (¬ model.Addresses id →
          model.applyTraits id traits = .error (.unresolvedShape id) ∧
            changeTraits id traits model = .error (.unresolvedShape id) model) := by
  intro model
  refine ⟨Operation.wellKeyed_run wellKeyed_empty operations,
    fun id => Operation.get?_run rfl operations, fun id traits => ⟨?_, ?_⟩⟩
  · intro haddresses
    obtain ⟨shape, changed, hget, hadded, happly⟩ := applyTraits_of_addresses traits haddresses
    refine ⟨shape, changed, model.replace id.container changed, hget, hadded, happly, ?_,
      get?_replace model id.container changed, rfl⟩
    rw [changeTraits_eq, happly]
  · intro haddresses
    have happly := applyTraits_of_not_addresses traits haddresses
    refine ⟨happly, ?_⟩
    rw [changeTraits_eq, happly]

end SmithyKotlin
