import SmithyKotlin.Proofs.Model.WellKeyed
import SmithyKotlin.Proofs.Text.ByteOrder
import SmithyKotlin.Proofs.Union.Members
import SmithyKotlin.Proofs.Union.Names

/-!
# Planning unions

For a union whose targets are all in the model:

* `UnionDeclaration.plan_of_namesClash`: a plan fails with a violated invariant exactly when the names of its
  qualifying members clash, and then it fails in the same way for every provider.
* `UnionDeclaration.covers_of_plan`: a plan that succeeds has one variant for each qualifying member, in the order
  of the members' names, and the catch-all behind them (`Covers`), and all their names can be told apart without
  looking at case.
* `UnionDeclaration.plan_decidedByNames` has both for any provider (`DecidedByNames`).

A provider may fail by itself; that is no violated invariant.
-/

namespace SmithyKotlin.UnionDeclaration

/-- The variant belongs to the member, with the symbol that the provider gives it. -/
structure VariantOf (model : Model) (symbols : SymbolProvider) (member : Member)
    (variant : Variant) : Prop where
  name : variant.member = member.name
  id : variant.id = member.id
  target : variant.target = member.target
  symbol : symbols.memberSymbol model member = .ok variant.symbol

/-- A declaration with a variant for each qualifying member and a catch-all. -/
structure Covers (model : Model) (symbols : SymbolProvider) (settings : Settings) (union : Shape)
    (declaration : UnionDeclaration) : Prop where
  /-- The variants follow the bytes of the members' names. -/
  members : ∃ members : List Member, members.Perm (union.qualifying model) ∧
    (members.Pairwise fun a b => Text.bytes a.name < Text.bytes b.name) ∧
    List.Forall₂ (VariantOf model symbols) members declaration.variants
  names : declaration.variantNames =
    declaration.variants.map Variant.name ++ [settings.unknownVariantName]
  distinct : declaration.variantNames.Pairwise fun a b => Text.sameIgnoringAsciiCase a b = false

variable {model : Model} {symbols : SymbolProvider} {settings : Settings} {id : ShapeId}
  {union : Shape}

/-- The members that qualify, in the order of the variants. -/
def sortedMembers (model : Model) (union : Shape) : List Member :=
  (union.qualifying model).mergeSort Shape.byName

/-- What remains of a plan once the members are known. -/
def finish (model : Model) (symbols : SymbolProvider) (settings : Settings) (id : ShapeId)
    (union : Shape) (members : List Member) : Except CodegenError UnionDeclaration := do
  let variants ← members.mapM (Variant.ofMember model symbols)
  let symbol ← symbols.shapeSymbol model union
  return { id, symbol, variants, unknownName := settings.unknownVariantName
           documentation := union.traits.documentation?
           deprecated := union.traits.deprecation? }

theorem ofMember_eq_ok (hkeyed : model.WellKeyed) {member : Member} {variant : Variant}
    (h : Variant.ofMember model symbols member = .ok variant) :
    VariantOf model symbols member variant := by
  obtain ⟨target, htarget, h⟩ := bind_eq_ok_iff.mp h
  obtain ⟨symbol, hsymbol, h⟩ := bind_eq_ok_iff.mp h
  cases h
  exact ⟨rfl, rfl, hkeyed _ _ (Model.find_eq_ok_iff.mp htarget), hsymbol⟩

/-- With its target in the model a member fails to become a variant only for want of its symbol. -/
theorem ofMember_eq_error {member : Member} {error : CodegenError}
    (htarget : ∃ target, model.get? member.target = some target)
    (h : Variant.ofMember model symbols member = .error error) :
    symbols.memberSymbol model member = .error error := by
  obtain ⟨target, hget⟩ := htarget
  rw [Variant.ofMember, Model.find_eq_ok_iff.mpr hget, ok_bind] at h
  rcases bind_eq_error_iff.mp h with hsymbol | ⟨symbol, _, hpure⟩
  · exact hsymbol
  · cases hpure

/-- Behind the check on the names only the provider fails. -/
theorem finish_eq_error {members : List Member} {error : CodegenError}
    (htargets : ∀ member ∈ members, ∃ target, model.get? member.target = some target)
    (h : finish model symbols settings id union members = .error error) :
    (∃ member ∈ members, symbols.memberSymbol model member = .error error) ∨
      symbols.shapeSymbol model union = .error error := by
  rcases bind_eq_error_iff.mp h with hvariants | ⟨variants, _, h⟩
  · obtain ⟨member, hmem, hmember⟩ := mapM_eq_error hvariants
    exact .inl ⟨member, hmem, ofMember_eq_error (htargets member hmem) hmember⟩
  · rcases bind_eq_error_iff.mp h with hsymbol | ⟨symbol, _, hpure⟩
    · exact .inr hsymbol
    · cases hpure

theorem finish_eq_ok (hkeyed : model.WellKeyed) {members : List Member}
    {declaration : UnionDeclaration}
    (h : finish model symbols settings id union members = .ok declaration) :
    List.Forall₂ (VariantOf model symbols) members declaration.variants ∧
      declaration.unknownName = settings.unknownVariantName := by
  obtain ⟨variants, hvariants, h⟩ := bind_eq_ok_iff.mp h
  obtain ⟨symbol, _, h⟩ := bind_eq_ok_iff.mp h
  cases h
  exact ⟨(mapM_eq_ok_iff.mp hvariants).imp fun _ _ => ofMember_eq_ok hkeyed, rfl⟩

/-! ## Names -/

theorem sortedMembers_perm (model : Model) (union : Shape) :
    (sortedMembers model union).Perm (union.qualifying model) :=
  List.mergeSort_perm _ _

/-- Members that are declared in the order of their names stay in this order. -/
theorem sortedMembers_of_pairwise
    (hordered : (union.qualifying model).Pairwise fun a b => Shape.byName a b = true) :
    sortedMembers model union = union.qualifying model :=
  List.mergeSort_of_pairwise hordered

theorem target_of_mem_sortedMembers
    (htargets : ∀ member ∈ union.members, ∃ target, model.get? member.target = some target)
    {member : Member} (hmem : member ∈ sortedMembers model union) :
    ∃ target, model.get? member.target = some target := by
  have hqualifies := (sortedMembers_perm model union).mem_iff.mp hmem
  exact htargets member (List.mem_of_mem_filter hqualifies)

theorem namesClash_sortedMembers {unknownName : String} :
    NamesClash unknownName ((sortedMembers model union).map (·.name)) ↔
      NamesClash unknownName ((union.qualifying model).map (·.name)) :=
  namesClash_perm ((sortedMembers_perm model union).map _)

theorem sameVariant_self (name : String) : sameVariant name name = true := beq_self_eq_true _

/-- Without a clash the members are in strict order. -/
theorem sortedMembers_strict {unknownName : String}
    (hclash : ¬ NamesClash unknownName ((sortedMembers model union).map (·.name))) :
    (sortedMembers model union).Pairwise fun a b => Text.bytes a.name < Text.bytes b.name := by
  have hpairs := (not_namesClash_iff.mp hclash).2
  rw [List.pairwise_map] at hpairs
  have hnames : (sortedMembers model union).Pairwise fun a b => a.name ≠ b.name := by
    refine hpairs.imp fun {a b} hdiffer heq => ?_
    rw [heq, sameVariant_self] at hdiffer
    cases hdiffer
  exact (Shape.pairwise_lt_mergeSort hnames).imp Text.lt_iff_bytes_lt.mp

theorem map_name_variants {members : List Member} {variants : List Variant}
    (h : List.Forall₂ (VariantOf model symbols) members variants) :
    variants.map Variant.name = members.map fun member => Naming.pascalCase member.name := by
  induction h with
  | nil => rfl
  | cons hvariant _ ih => rw [List.map_cons, List.map_cons, ih, Variant.name, hvariant.name]

/-- Without a clash the names of the variants and of the catch-all differ. -/
theorem pairwise_variantNames {members : List Member} {declaration : UnionDeclaration}
    (hclash : ¬ NamesClash declaration.unknownName (members.map (·.name)))
    (hvariants : List.Forall₂ (VariantOf model symbols) members declaration.variants) :
    declaration.variantNames.Pairwise fun a b => Text.sameIgnoringAsciiCase a b = false := by
  obtain ⟨hreserved, hpairs⟩ := not_namesClash_iff.mp hclash
  rw [List.pairwise_map] at hpairs
  rw [variantNames, map_name_variants hvariants, List.pairwise_append, List.pairwise_map]
  refine ⟨hpairs, List.pairwise_singleton _ _, fun name hname last hlast => ?_⟩
  obtain ⟨member, hmem, rfl⟩ := List.mem_map.mp hname
  obtain rfl := List.mem_singleton.mp hlast
  by_contra hsame
  rw [Bool.not_eq_false] at hsame
  exact hreserved member.name (List.mem_map_of_mem hmem)
    ⟨declaration.unknownName, List.mem_cons_self, .inr hsame⟩

/-! ## Plans -/

theorem type_of_plan {declaration : UnionDeclaration} (hget : model.get? id = some union)
    (hplan : plan model symbols settings id = .ok declaration) : union.type = .union := by
  rw [plan, Model.find_eq_ok_iff.mpr hget, ok_bind] at hplan
  by_contra htype
  rw [if_pos htype] at hplan
  cases hplan

/-- A union that can be planned has all its targets in the model. -/
theorem targets_of_plan {declaration : UnionDeclaration} (hget : model.get? id = some union)
    (hplan : plan model symbols settings id = .ok declaration) :
    ∀ member ∈ union.members, ∃ target, model.get? member.target = some target := by
  have htype := type_of_plan hget hplan
  rw [plan, Model.find_eq_ok_iff.mpr hget, ok_bind, if_neg (not_not_intro htype)] at hplan
  obtain ⟨members, hmembers, _⟩ := bind_eq_ok_iff.mp hplan
  exact Shape.target_of_variantMembers hmembers

/-- A plan with all targets: the check on the names, and then what remains. -/
theorem plan_eq_of_targets (hget : model.get? id = some union) (htype : union.type = .union)
    (htargets : ∀ member ∈ union.members, ∃ target, model.get? member.target = some target) :
    plan model symbols settings id =
      checkNames union.id settings.unknownVariantName (sortedMembers model union) >>= fun _ =>
        finish model symbols settings id union (sortedMembers model union) := by
  have hfind : model.find id = .ok union := Model.find_eq_ok_iff.mpr hget
  have hmembers := Shape.variantMembers_eq_ok htype htargets
  rw [plan, hfind, ok_bind, if_neg (not_not_intro htype), hmembers]
  rfl

/-- Members that are declared in the order of their names are planned as they are. -/
theorem plan_eq_of_pairwise (hget : model.get? id = some union) (htype : union.type = .union)
    (htargets : ∀ member ∈ union.members, (model.get? member.target).isSome = true)
    (hordered : (union.qualifying model).Pairwise fun a b => Shape.byName a b = true) :
    plan model symbols settings id =
      checkNames union.id settings.unknownVariantName (union.qualifying model) >>= fun _ =>
        finish model symbols settings id union (union.qualifying model) := by
  rw [plan_eq_of_targets hget htype fun member hmem => Option.isSome_iff_exists.mp (htargets member hmem),
    sortedMembers_of_pairwise hordered]

/-- A plan has one variant for each member that qualifies, in the order of their names. -/
theorem variants_of_plan {declaration : UnionDeclaration} (hget : model.get? id = some union)
    (hplan : plan model symbols settings id = .ok declaration) :
    List.Forall₂ (fun member variant => Variant.ofMember model symbols member = .ok variant)
      (sortedMembers model union) declaration.variants := by
  rw [plan_eq_of_targets hget (type_of_plan hget hplan) (targets_of_plan hget hplan)] at hplan
  obtain ⟨_, _, hfinish⟩ := bind_eq_ok_iff.mp hplan
  obtain ⟨variants, hvariants, h⟩ := bind_eq_ok_iff.mp hfinish
  obtain ⟨symbol, _, h⟩ := bind_eq_ok_iff.mp h
  cases h
  exact mapM_eq_ok_iff.mp hvariants

section Plans

variable (hkeyed : model.WellKeyed) (hget : model.get? id = some union)
  (htype : union.type = .union)
  (htargets : ∀ member ∈ union.members, ∃ target, model.get? member.target = some target)

include hkeyed hget htype htargets

theorem plan_eq :
    plan model symbols settings id =
      checkNames id settings.unknownVariantName (sortedMembers model union) >>= fun _ =>
        finish model symbols settings id union (sortedMembers model union) := by
  rw [plan_eq_of_targets hget htype htargets, hkeyed id union hget]

/-- A clash stops every plan in the same way. -/
theorem plan_of_namesClash
    (hclash : NamesClash settings.unknownVariantName ((union.qualifying model).map (·.name))) :
    ∃ error : CodegenError, error.kind = .invariantViolation ∧ error.shape? = some id ∧
      ∀ symbols, plan model symbols settings id = .error error := by
  cases hchecked : checkNames id settings.unknownVariantName (sortedMembers model union) with
  | ok _ =>
    have hfree := checkNames_eq_ok_iff.mp hchecked
    exact absurd (namesClash_sortedMembers.mpr hclash) hfree
  | error error =>
    obtain ⟨hkind, hshape⟩ := checkNames_eq_error hchecked
    refine ⟨error, hkind, hshape, fun symbols => ?_⟩
    rw [plan_eq hkeyed hget htype htargets, hchecked, error_bind]

/-- Without a clash a plan goes past the check on the names. -/
theorem plan_of_not_namesClash
    (hclash : ¬ NamesClash settings.unknownVariantName ((union.qualifying model).map (·.name))) :
    plan model symbols settings id =
      finish model symbols settings id union (sortedMembers model union) := by
  have hsorted := mt namesClash_sortedMembers.mp hclash
  rw [plan_eq hkeyed hget htype htargets, checkNames_eq_ok_iff.mpr hsorted, ok_bind]

/-- A plan that succeeds has no clash. -/
theorem not_namesClash_of_plan {declaration : UnionDeclaration}
    (hplan : plan model symbols settings id = .ok declaration) :
    ¬ NamesClash settings.unknownVariantName ((union.qualifying model).map (·.name)) := by
  intro hclash
  obtain ⟨error, _, _, herror⟩ := plan_of_namesClash hkeyed hget htype htargets hclash
  rw [herror symbols] at hplan
  cases hplan

theorem covers_of_plan {declaration : UnionDeclaration}
    (hplan : plan model symbols settings id = .ok declaration) :
    declaration.Covers model symbols settings union := by
  have hclash := not_namesClash_of_plan hkeyed hget htype htargets hplan
  rw [plan_of_not_namesClash hkeyed hget htype htargets hclash] at hplan
  obtain ⟨hvariants, hunknown⟩ := finish_eq_ok hkeyed hplan
  have hsorted := mt namesClash_sortedMembers.mp hclash
  refine ⟨⟨_, sortedMembers_perm model union, sortedMembers_strict hsorted, hvariants⟩, ?_, ?_⟩
  · rw [variantNames, hunknown]
  · exact pairwise_variantNames (hunknown ▸ hsorted) hvariants

end Plans

/-- What becomes of the plans for a union, for all providers together. -/
structure DecidedByNames (model : Model) (settings : Settings) (id : ShapeId) (union : Shape) :
    Prop where
  /-- The names clash exactly when there is one violated invariant for all providers. -/
  clash : NamesClash settings.unknownVariantName ((union.qualifying model).map (·.name)) ↔
    ∃ error : CodegenError, error.kind = .invariantViolation ∧ error.shape? = some id ∧
      ∀ symbols, plan model symbols settings id = .error error
  /-- Otherwise only the provider fails. -/
  provider : ¬ NamesClash settings.unknownVariantName ((union.qualifying model).map (·.name)) →
    ∀ symbols error, plan model symbols settings id = .error error →
      (∃ member ∈ union.qualifying model, symbols.memberSymbol model member = .error error) ∨
        symbols.shapeSymbol model union = .error error
  covers : ∀ symbols declaration, plan model symbols settings id = .ok declaration →
    declaration.Covers model symbols settings union

/-- A provider that has the same symbol for everything. -/
def constantSymbols (symbol : Symbol) : SymbolProvider :=
  ⟨fun _ _ => .ok symbol, fun _ _ => .ok symbol⟩

/-- Plans for a union are stopped by clashes of names and by the provider, and by nothing else. -/
theorem plan_decidedByNames (model : Model) (settings : Settings) (id : ShapeId) (union : Shape)
    (hkeyed : model.WellKeyed) (hget : model.get? id = some union) (htype : union.type = .union)
    (htargets : ∀ member ∈ union.members, ∃ target, model.get? member.target = some target) :
    DecidedByNames model settings id union := by
  have hprovider : ¬ NamesClash settings.unknownVariantName
      ((union.qualifying model).map (·.name)) →
      ∀ symbols error, plan model symbols settings id = .error error →
        (∃ member ∈ union.qualifying model, symbols.memberSymbol model member = .error error) ∨
          symbols.shapeSymbol model union = .error error := by
    intro hclash symbols error hplan
    rw [plan_of_not_namesClash hkeyed hget htype htargets hclash] at hplan
    have hsorted (member) (hmem : member ∈ sortedMembers model union) :=
      target_of_mem_sortedMembers htargets hmem
    refine (finish_eq_error hsorted hplan).imp_left ?_
    intro h
    obtain ⟨member, hmem, hsymbol⟩ := h
    exact ⟨member, (sortedMembers_perm model union).mem_iff.mp hmem, hsymbol⟩
  refine ⟨⟨plan_of_namesClash hkeyed hget htype htargets, ?_⟩, hprovider, ?_⟩
  · -- a provider that never fails leaves only the names to blame
    intro h
    obtain ⟨error, _, _, herror⟩ := h
    by_contra hclash
    rcases hprovider hclash (constantSymbols default) error (herror _) with ⟨_, _, h⟩ | h
    · cases h
    · cases h
  · intro symbols declaration hplan
    exact covers_of_plan hkeyed hget htype htargets hplan

/-- An event stream with an event of texts and an error. -/
def feed : Shape :=
  { id := ⟨"com.a#Feed"⟩, type := .union
    members := [.of ⟨"com.a#Feed"⟩ "tick" ⟨"smithy.api#String"⟩,
      .of ⟨"com.a#Feed"⟩ "fault" ⟨"com.a#Fault"⟩]
    traits := SortedMap.empty.insert Trait.streaming Json.emptyObject }

def fault : Shape :=
  { id := ⟨"com.a#Fault"⟩, type := .struct
    traits := SortedMap.empty.insert Trait.error (.string "client") }

def feedModel : Model :=
  ((Model.insert {} { id := ⟨"smithy.api#String"⟩, type := .string }).insert fault).insert feed

def feedSettings : Settings := { packageName := "com.a", runtimeVersion := "1.0.0" }

theorem plan_decidedByNames_feed :
    feedModel.WellKeyed ∧ feedModel.get? feed.id = some feed ∧ feed.type = .union ∧
      (∀ member ∈ feed.members, ∃ target, feedModel.get? member.target = some target) ∧
      (feed.qualifying feedModel).map (·.name) = ["tick"] ∧
      DecidedByNames feedModel feedSettings feed.id feed := by
  have hkeyed : feedModel.WellKeyed := ((Model.wellKeyed_empty.insert _).insert _).insert _
  have hget : feedModel.get? feed.id = some feed := by
    rw [feedModel, Model.get?_insert, if_pos rfl]
  have htargets : ∀ member ∈ feed.members,
      ∃ target, feedModel.get? member.target = some target := by
    have hisSome : ∀ member ∈ feed.members, (feedModel.get? member.target).isSome := by
      decide +kernel
    exact fun member hmem => Option.isSome_iff_exists.mp (hisSome member hmem)
  exact ⟨hkeyed, hget, rfl, htargets, by decide +kernel,
    plan_decidedByNames feedModel feedSettings feed.id feed hkeyed hget rfl htargets⟩

end SmithyKotlin.UnionDeclaration
