import SmithyKotlin.Proofs.Symbol.Resemblance

/-!
# What symbols depend on

* `SymbolProvider.kotlin_congr`: of the settings a symbol shows the package and the runtime version only.
* `Model.AgreeFrom`: of the model it shows the shapes that are looked up on the way through lists and maps.
* `kotlinShape_congr`, `kotlinMember_congr`: models that agree on these give the same symbol, or fail in the same
  way.
-/

namespace SmithyKotlin

/-! ## Settings -/

/-- The symbol of a type depends on the package and the runtime version only. -/
theorem KotlinType.symbol_congr {a b : Settings} (hpackage : a.packageName = b.packageName)
    (hruntime : a.runtimeVersion = b.runtimeVersion) (type : KotlinType) :
    type.symbol a = type.symbol b := by
  have hmodel : a.modelPackage = b.modelPackage := by
    rw [Settings.modelPackage, Settings.modelPackage, hpackage]
  have hdependency : Runtime.dependency a = Runtime.dependency b := by
    rw [Runtime.dependency, Runtime.dependency, hruntime]
  induction type with
  | builtin name => rfl
  | runtime package name => rw [symbol, symbol, hdependency]
  | generated name => rw [symbol, symbol, hmodel]
  | list element sparse ih => rw [symbol, symbol, ih]
  | map key value sparse ihkey ihvalue => rw [symbol, symbol, ihkey, ihvalue]

theorem SymbolProvider.kotlin_congr {a b : Settings} (hpackage : a.packageName = b.packageName)
    (hruntime : a.runtimeVersion = b.runtimeVersion) : kotlin a = kotlin b := by
  have hsymbol : KotlinType.symbol a = KotlinType.symbol b :=
    funext (KotlinType.symbol_congr hpackage hruntime)
  have hshape : kotlinShape a = kotlinShape b := by
    funext model shape
    rw [kotlinShape, kotlinShape, hsymbol]
  have hmember : kotlinMember a = kotlinMember b := by
    funext model member
    rw [kotlinMember, kotlinMember, hshape]
  rw [kotlin, kotlin, hshape, hmember]

/-! ## Shapes that are looked up -/

/-- The ids that a shape leads to: the targets of its members and, for lists and maps among them, those of
their elements, keys and values, at any depth. -/
inductive Model.LeadsTo (model : Model) (shape : Shape) : ShapeId → Prop where
  | target {member : Member} (hmember : member ∈ shape.members) :
      model.LeadsTo shape member.target
  | slot {id : ShapeId} {outer : Shape} {name : String} {member : Member}
      (hid : model.LeadsTo shape id) (hget : model.get? id = some outer)
      (hslot : name ∈ outer.slots) (hmember : outer.member? name = some member) :
      model.LeadsTo shape member.target

/-- A set of ids that holds the targets of the members, and with every list or map what stands in its
slots, holds all ids that the shape leads to. -/
theorem Model.LeadsTo.of_closed {model : Model} {shape : Shape} (ids : ShapeId → Prop)
    (htargets : ∀ member ∈ shape.members, ids member.target)
    (hclosed : ∀ id outer, ids id → model.get? id = some outer → ∀ name ∈ outer.slots,
      ∀ member, outer.member? name = some member → ids member.target)
    {id : ShapeId} (h : model.LeadsTo shape id) : ids id := by
  induction h with
  | target hmember => exact htargets _ hmember
  | slot _ hget hslot hmember ih => exact hclosed _ _ ih hget _ hslot _ hmember

/-- Two models have the same shapes under the ids that a shape leads to, and lack the same ones. -/
def Model.AgreeFrom (a b : Model) (shape : Shape) : Prop :=
  ∀ id, a.LeadsTo shape id → a.get? id = b.get? id

theorem Model.find_congr {a b : Model} {id : ShapeId} (h : a.get? id = b.get? id) :
    a.find id = b.find id := by
  rw [find, find, h]

namespace KotlinType

variable {a b : Model} {root shape : Shape}

/-- Models that agree where a shape leads have the same shapes under all ids that are looked up for it. -/
theorem matching_of_agreeFrom (hagree : a.AgreeFrom b root) : Matching (a.LeadsTo root) a b := by
  refine ⟨fun id outer hid hget name hslot member hmember => .slot hid hget hslot hmember,
    fun id hid => ?_⟩
  rw [← hagree id hid]
  exact optionRel_refl _

/-- The types of shapes that the root leads to depend on such shapes only. -/
theorem ofShape_congr (hagree : a.AgreeFrom b root) (hslots : SlotsIn (a.LeadsTo root) shape) :
    ofShape a shape = ofShape b shape :=
  ofShape_matching (matching_of_agreeFrom hagree) (.refl shape) hslots

end KotlinType

namespace SymbolProvider

variable {a b : Model} {shape : Shape}

/-- The symbol of a shape depends on the shapes that it leads to. -/
theorem kotlinShape_congr (settings : Settings) (hagree : a.AgreeFrom b shape) :
    kotlinShape settings a shape = kotlinShape settings b shape := by
  have hslots : KotlinType.SlotsIn (a.LeadsTo shape) shape := fun _ _ _ hmember =>
    .target (List.mem_of_find?_eq_some hmember)
  rw [kotlinShape, kotlinShape, KotlinType.ofShape_congr hagree hslots]

/-- The symbol of a member depends on the shapes that its container leads to. -/
theorem kotlinMember_congr (settings : Settings) (hagree : a.AgreeFrom b shape) {member : Member}
    (hmember : member ∈ shape.members) :
    kotlinMember settings a member = kotlinMember settings b member :=
  kotlinMember_matching (KotlinType.matching_of_agreeFrom hagree) settings (.target hmember)

end SymbolProvider

end SmithyKotlin
