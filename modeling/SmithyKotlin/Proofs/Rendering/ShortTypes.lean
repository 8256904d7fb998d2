import SmithyKotlin.Proofs.Rendering.Emission
import SmithyKotlin.Proofs.Structure.Planning
import SmithyKotlin.Proofs.Union.Planning
import SmithyKotlin.Proofs.Writer.Scope

/-!
# The names in a file and what they mean

* `Shape.shortTypes`: the types that a file names without their package, read off the model: the declared class, the
  runtime types and generated types of the members, and the exception class for an error.
* `StructureDeclaration.mem_shortReferences_emit`, `UnionDeclaration.mem_shortReferences_emit`: the instructions of
  a plan refer to just these.
* `Shape.unambiguous_iff`: when no two of them share a name.  Imports are chosen one symbol at a time, so nothing
  else keeps them apart.
-/

namespace SmithyKotlin

variable {model : Model} {settings : Settings} {shape : Shape}

/-! ## Short types of a shape -/

/-- The exception class that errors extend. -/
def Runtime.serviceException : TypeName := ⟨Runtime.package, "ServiceException"⟩

namespace Shape

/-- The names of the variants that a union gets, the catch-all last. -/
def variantNames (settings : Settings) (model : Model) (union : Shape) : List String :=
  (union.qualifying model).map (fun member => Naming.pascalCase member.name)
    ++ [settings.unknownVariantName]

/-- The types that the declaration of a structure or union refers to by their names only.  In a union
the names of the variants hide other types, which are written with their package. -/
def shortTypes (settings : Settings) (model : Model) (shape : Shape) : List TypeName :=
  if shape.type = .union then
    ((shape.qualifying model).filterMap (Member.shortName? settings model)).filter fun type =>
      !(shape.variantNames settings model).contains type.name
  else
    (if shape.isError then [Runtime.serviceException] else [])
      ++ shape.members.filterMap (Member.shortName? settings model)

theorem mem_shortTypes_struct (htype : shape.type = .struct) {type : TypeName} :
    type ∈ shape.shortTypes settings model ↔
      (shape.isError = true ∧ type = Runtime.serviceException) ∨
        ∃ member ∈ shape.members, member.shortName? settings model = some type := by
  have hunion : shape.type ≠ .union := by
    rw [htype]
    exact fun h => by cases h
  rw [shortTypes, if_neg hunion, List.mem_append, List.mem_filterMap]
  cases shape.isError <;> simp

theorem mem_shortTypes_union (htype : shape.type = .union) {type : TypeName} :
    type ∈ shape.shortTypes settings model ↔
      type.name ∉ shape.variantNames settings model ∧
        ∃ member ∈ shape.qualifying model, member.shortName? settings model = some type := by
  rw [shortTypes, if_pos htype, List.mem_filter, List.mem_filterMap, Bool.not_eq_true',
    ← Bool.not_eq_true, List.contains_iff_mem, and_comm]

/-- A type that is named without its package comes from the runtime or is a generated one. -/
theorem package_of_mem_shortTypes (htype : shape.type = .struct ∨ shape.type = .union)
    {type : TypeName} (hmem : type ∈ shape.shortTypes settings model) :
    type ∈ Runtime.types ∨ type.package = settings.modelPackage := by
  rcases htype with htype | htype
  · rcases (mem_shortTypes_struct htype).mp hmem with ⟨_, rfl⟩ | ⟨member, _, hshort⟩
    · exact .inl (by decide +kernel)
    · exact Member.package_of_shortName? hshort
  · obtain ⟨_, member, _, hshort⟩ := (mem_shortTypes_union htype).mp hmem
    exact Member.package_of_shortName? hshort

/-- A type of the runtime that the declaration names, whose name is also that of the declared class or
of a generated type that the declaration names. -/
def HidesRuntimeType (settings : Settings) (model : Model) (shape : Shape) : Prop :=
  ∃ type ∈ shape.shortTypes settings model, type ∈ Runtime.types ∧
    ⟨settings.modelPackage, type.name⟩ ∈
      shape.declaredName settings :: shape.shortTypes settings model

instance : Decidable (shape.HidesRuntimeType settings model) :=
  inferInstanceAs (Decidable (∃ type ∈ shape.shortTypes settings model, type ∈ Runtime.types ∧
    ⟨settings.modelPackage, type.name⟩ ∈
      shape.declaredName settings :: shape.shortTypes settings model))

/-- Types of the runtime have different names, and so do generated types, so a name has two meanings only
between the two. -/
theorem unambiguous_iff (htype : shape.type = .struct ∨ shape.type = .union) :
    Unambiguous (shape.declaredName settings :: shape.shortTypes settings model) ↔
      ¬ shape.HidesRuntimeType settings model := by
  have hcases : ∀ type ∈ shape.declaredName settings :: shape.shortTypes settings model,
      (type ∈ Runtime.types ∧ type ∈ shape.shortTypes settings model) ∨
        type.package = settings.modelPackage := by
    intro type hmem
    rcases List.mem_cons.mp hmem with rfl | hmem
    · exact .inr rfl
    · exact (package_of_mem_shortTypes htype hmem).imp_left fun hruntime => ⟨hruntime, hmem⟩
  constructor
  · intro hunambiguous h
    obtain ⟨type, hmem, hruntime, hgenerated⟩ := h
    exact Runtime.package_ne_modelPackage hruntime settings
      (hunambiguous type (List.mem_cons_of_mem _ hmem) _ hgenerated rfl)
  · intro hhides
    -- a generated type cannot have the name of a runtime type
    have hapart : ∀ a ∈ shape.shortTypes settings model, a ∈ Runtime.types →
        ∀ b ∈ shape.declaredName settings :: shape.shortTypes settings model,
          b.package = settings.modelPackage → a.name ≠ b.name := by
      rintro a hmem hruntime ⟨package, name⟩ hb rfl rfl
      exact hhides ⟨a, hmem, hruntime, hb⟩
    intro a ha b hb hname
    rcases hcases a ha with ⟨hruntimeA, hshortA⟩ | hgeneratedA
    · rcases hcases b hb with ⟨hruntimeB, _⟩ | hgeneratedB
      · rw [Runtime.eq_of_name_eq hruntimeA hruntimeB hname]
      · exact absurd hname (hapart a hshortA hruntimeA b hb hgeneratedB)
    · rcases hcases b hb with ⟨hruntimeB, hshortB⟩ | hgeneratedB
      · exact absurd hname.symm (hapart b hshortB hruntimeB a ha hgeneratedA)
      · rw [hgeneratedA, hgeneratedB]

end Shape

/-! ## Planned declarations -/

/-- What holds of an element on one side holds of an element on the other. -/
theorem exists_mem_iff_of_forall₂ {α β : Type} {R : α → β → Prop} {P : α → Prop} {Q : β → Prop}
    {xs : List α} {ys : List β} (h : List.Forall₂ R xs ys) (hiff : ∀ x y, R x y → (Q y ↔ P x)) :
    (∃ y ∈ ys, Q y) ↔ ∃ x ∈ xs, P x := by
  induction h with
  | nil => simp
  | cons hxy _ ih => rw [List.exists_mem_cons_iff, List.exists_mem_cons_iff, ih, hiff _ _ hxy]

namespace StructureDeclaration

/-- What a plan took from the model and the provider. -/
structure PlannedFor (model : Model) (symbols : SymbolProvider) (settings : Settings)
    (shape : Shape) (declaration : StructureDeclaration) : Prop where
  symbol : symbols.shapeSymbol model shape = .ok declaration.symbol
  superclass : declaration.superclass =
    if shape.isError then some (serviceException settings) else none
  properties : List.Forall₂ (fun member (property : Property) =>
    symbols.memberSymbol model member = .ok property.symbol) shape.members declaration.properties

theorem plannedFor_of_plan {symbols : SymbolProvider} {declaration : StructureDeclaration}
    (hget : model.get? shape.id = some shape) (htype : shape.type = .struct)
    (hplan : plan model symbols settings shape.id = .ok declaration) :
    declaration.PlannedFor model symbols settings shape := by
  obtain ⟨properties, symbol, hproperties, hsymbol, rfl⟩ := (plan_eq_ok_iff hget htype).mp hplan
  exact ⟨hsymbol, rfl, hproperties.imp fun _ _ => Property.symbol_ofMember⟩

theorem short_serviceException_iff {type : TypeName} :
    (serviceException settings).isShort = true ∧ (serviceException settings).typeName = type ↔
      type = Runtime.serviceException := by
  have hnamed : (KotlinType.runtime Runtime.package "ServiceException").isNamed = true := by
    decide +kernel
  have hsymbol : serviceException settings =
      (KotlinType.runtime Runtime.package "ServiceException").symbol settings := rfl
  rw [hsymbol, ← KotlinType.shortName?_eq_some_iff hnamed, KotlinType.shortName?,
    Option.some.injEq, eq_comm]
  rfl

/-- The types that a structure refers to by name are those that the model says. -/
theorem mem_shortReferences_emit {declaration : StructureDeclaration}
    (htype : shape.type = .struct)
    (hplanned : declaration.PlannedFor model (SymbolProvider.kotlin settings) settings shape)
    {type : TypeName} :
    type ∈ shortReferences declaration.emit ↔ type ∈ shape.shortTypes settings model := by
  have hmembers : (∃ property ∈ declaration.properties,
      property.symbol.isShort = true ∧ property.symbol.typeName = type) ↔
        ∃ member ∈ shape.members, member.shortName? settings model = some type :=
    exists_mem_iff_of_forall₂ hplanned.properties fun _ _ hsymbol =>
      (Member.shortName?_eq_some_iff hsymbol).symm
  rw [mem_shortReferences_iff, references_emit, referencedSymbols,
    Shape.mem_shortTypes_struct htype, ← hmembers, hplanned.superclass]
  simp only [List.mem_append, List.mem_map, or_and_right, exists_or, exists_exists_and_eq_and]
  refine or_congr ?_ Iff.rfl
  cases shape.isError with
  | false => simp
  | true =>
    simp only [if_pos, Option.mem_toList, Option.some.injEq, exists_eq_left',
      short_serviceException_iff, true_and]

end StructureDeclaration

namespace UnionDeclaration

/-- A plan that succeeds found all targets and the symbol of the union. -/
theorem symbol_of_plan {symbols : SymbolProvider} {id : ShapeId} {declaration : UnionDeclaration}
    (hget : model.get? id = some shape) (htype : shape.type = .union)
    (hplan : plan model symbols settings id = .ok declaration) :
    (∀ member ∈ shape.members, ∃ target, model.get? member.target = some target) ∧
      symbols.shapeSymbol model shape = .ok declaration.symbol := by
  have htargets := targets_of_plan hget hplan
  rw [plan_eq_of_targets hget htype htargets] at hplan
  obtain ⟨_, _, hfinish⟩ := bind_eq_ok_iff.mp hplan
  obtain ⟨variants, _, h⟩ := bind_eq_ok_iff.mp hfinish
  obtain ⟨symbol, hsymbol, h⟩ := bind_eq_ok_iff.mp h
  cases h
  exact ⟨htargets, hsymbol⟩

theorem mem_variantNames_iff {symbols : SymbolProvider} {declaration : UnionDeclaration}
    (hcovers : declaration.Covers model symbols settings shape) {name : String} :
    name ∈ declaration.variantNames ↔ name ∈ shape.variantNames settings model := by
  obtain ⟨members, hperm, _, hvariants⟩ := hcovers.members
  rw [hcovers.names, map_name_variants hvariants, Shape.variantNames, List.mem_append,
    List.mem_append, (hperm.map _).mem_iff]

/-- The types that a union refers to by name are those that the model says. -/
theorem mem_shortReferences_emit {declaration : UnionDeclaration} (htype : shape.type = .union)
    (hcovers : declaration.Covers model (SymbolProvider.kotlin settings) settings shape)
    {type : TypeName} :
    type ∈ shortReferences declaration.emit ↔ type ∈ shape.shortTypes settings model := by
  obtain ⟨members, hperm, _, hvariants⟩ := hcovers.members
  have hvalues : (∃ variant ∈ declaration.variants,
      variant.symbol.isShort = true ∧ variant.symbol.typeName = type) ↔
        ∃ member ∈ members, member.shortName? settings model = some type :=
    exists_mem_iff_of_forall₂ hvariants fun _ _ hvariant =>
      (Member.shortName?_eq_some_iff hvariant.symbol).symm
  simp only [hperm.mem_iff] at hvalues
  rw [mem_shortReferences_iff, Shape.mem_shortTypes_union htype, ← hvalues,
    ← mem_variantNames_iff hcovers]
  simp only [mem_references_emit]
  constructor
  · intro h
    obtain ⟨symbol, ⟨variant, hmem, hshown, hsymbol⟩, hshort, rfl⟩ := h
    -- both forms of the symbol have the same name
    rcases hsymbol with rfl | rfl
    · exact ⟨hshown, variant, hmem, hshort, rfl⟩
    · exact ⟨hshown, variant, hmem, hshort, rfl⟩
  · intro h
    obtain ⟨hshown, variant, hmem, hshort, rfl⟩ := h
    exact ⟨variant.symbol, ⟨variant, hmem, hshown, .inl rfl⟩, hshort, rfl⟩

end UnionDeclaration

end SmithyKotlin
