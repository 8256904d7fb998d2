import SmithyKotlin.Proofs.Rendering.Lines
import SmithyKotlin.Proofs.Union.Planning

/-!
# The functions of a union

* `UnionDeclaration.functionLines_emit`: the class of a union has two functions for each variant, one that is called
  like the variant and one with `OrNull` behind that.
* `UnionDeclaration.assertAccessor_eq_optionalAccessor_iff`: two of these names are one exactly when the name of one
  variant is that of another with `OrNull` behind it.
* `UnionDeclaration.plan_accessorNames`: names of variants are checked, those of functions are not, so they are
  distinct exactly when no two variants are like that (`UnionDeclaration.AccessorsMeet`).

The functions that all classes have are no functions of variants and are not counted.
-/

namespace SmithyKotlin

/-! ## Public functions -/

/-- The line, if it is that of a public function. -/
def publicFunction? (line : String) : Option String :=
  if "public fun ".toList.isPrefixOf line.toList then some line else none

/-- The line of a public function, if the instruction writes one, alone or as a header. -/
def Instruction.functionLine? : Instruction → Option String
  | write line => publicFunction? line
  | openBlock header => publicFunction? header
  | _ => none

/-- The lines of the public functions that instructions declare. -/
def functionLines (instructions : List Instruction) : List String :=
  instructions.filterMap Instruction.functionLine?

/-- They are the lines that start like a public function. -/
theorem functionLines_eq_linesStarting (instructions : List Instruction) :
    functionLines instructions = linesStarting ["public fun "] instructions := by
  have hline (line : String) : publicFunction? line = (some line).filter (startsIn ["public fun "]) := by
    rw [publicFunction?, Option.filter_some, startsIn, List.any_cons, List.any_nil, Bool.or_false]
  refine filterMap_eq_linesStarting fun instruction _ => ?_
  cases instruction with
  | write line => exact hline line
  | openBlock header => exact hline header
  | _ => rfl

/-- The line declares a public function without parameters. -/
def Declares (line name : String) : Prop := ∃ rest, line = "public fun " ++ name ++ "(): " ++ rest

/-! ## The functions of the class -/

namespace UnionDeclaration

theorem declares_assertSignature (declaration : UnionDeclaration) (variant : Variant) :
    Declares (declaration.assertSignature variant) variant.assertAccessor := by
  refine ⟨declaration.valueType variant ++ " = (this as " ++
    (declaration.symbol.qualifiedName ++ "." ++ variant.name) ++ ").value", ?_⟩
  unfold assertSignature
  simp only [String.append_assoc]

theorem declares_optionalSignature (declaration : UnionDeclaration) (variant : Variant) :
    Declares (declaration.optionalSignature variant) variant.optionalAccessor := by
  refine ⟨declaration.optionalValueType variant ++ " = (this as? " ++
    (declaration.symbol.qualifiedName ++ "." ++ variant.name) ++ ")?.value", ?_⟩
  unfold optionalSignature
  simp only [String.append_assoc]

/-- The public functions of the class are the two accessors of each variant. -/
theorem functionLines_eq_signatures (declaration : UnionDeclaration) :
    functionLines declaration.emit = declaration.variants.flatMap fun variant =>
      [declaration.assertSignature variant, declaration.optionalSignature variant] := by
  have hannotation : Apart ["public fun "] ["@Deprecated("] := by
    decide
  have hclass (variant : Variant) : startsIn ["public fun "] (declaration.classSignature variant) = false :=
    startsIn_eq_false (declaration.startsIn_classSignature variant) (by decide)
  have hassert := declaration.startsIn_assertSignature
  have hoptional := declaration.startsIn_optionalSignature
  rw [functionLines_eq_linesStarting, linesStarting_emit (by decide) (by decide), filter_annotation hannotation]
  simp [List.filter_append, filter_annotation hannotation, hclass, hassert, hoptional]

/-- The names of all accessors, variant by variant. -/
def accessorNames (declaration : UnionDeclaration) : List String :=
  declaration.accessors.flatMap fun pair => [pair.1, pair.2]

/-- They are called like the accessors, in their order. -/
theorem functionLines_emit (declaration : UnionDeclaration) :
    List.Forall₂ Declares (functionLines declaration.emit) declaration.accessorNames := by
  rw [functionLines_eq_signatures, accessorNames, accessors, List.flatMap_map]
  induction declaration.variants with
  | nil => exact .nil
  | cons variant rest ih =>
    rw [List.flatMap_cons, List.flatMap_cons]
    exact List.rel_append (.cons (declaration.declares_assertSignature variant)
      (.cons (declaration.declares_optionalSignature variant) .nil)) ih

/-! ## Names of accessors -/

theorem assertAccessor_inj {a b : String} :
    Naming.assertAccessor a = Naming.assertAccessor b ↔ a = b :=
  String.append_right_inj "as"

theorem optionalAccessor_inj {a b : String} :
    Naming.optionalAccessor a = Naming.optionalAccessor b ↔ a = b := by
  rw [Naming.optionalAccessor, Naming.optionalAccessor, String.append_left_inj, String.append_right_inj]

theorem assertAccessor_eq_optionalAccessor_iff {a b : String} :
    Naming.assertAccessor a = Naming.optionalAccessor b ↔ a = b ++ "OrNull" := by
  rw [Naming.assertAccessor, Naming.optionalAccessor, String.append_assoc, String.append_right_inj]

theorem ne_append_orNull (name : String) : name ≠ name ++ "OrNull" := by
  intro h
  have hlength := congrArg String.length h
  rw [String.length_append, show "OrNull".length = 6 from rfl] at hlength
  omega

/-- The names of the two functions of each variant. -/
def accessorsOf (variants : List String) : List String :=
  variants.flatMap fun variant => [Naming.assertAccessor variant, Naming.optionalAccessor variant]

theorem assertAccessor_mem_iff {variants : List String} {name : String} :
    Naming.assertAccessor name ∈ accessorsOf variants ↔
      name ∈ variants ∨ ∃ other ∈ variants, name = other ++ "OrNull" := by
  simp only [accessorsOf, List.mem_flatMap, List.mem_pair, assertAccessor_inj,
    assertAccessor_eq_optionalAccessor_iff, and_or_left, exists_or, exists_eq_right']

theorem optionalAccessor_mem_iff {variants : List String} {name : String} :
    Naming.optionalAccessor name ∈ accessorsOf variants ↔
      name ++ "OrNull" ∈ variants ∨ name ∈ variants := by
  simp only [accessorsOf, List.mem_flatMap, List.mem_pair, optionalAccessor_inj,
    @eq_comm _ (Naming.optionalAccessor name), assertAccessor_eq_optionalAccessor_iff, and_or_left,
    exists_or, exists_eq_right]

/-- The functions have different names when the variants have and none is called like another one with
`OrNull` behind it. -/
theorem nodup_accessorsOf_iff {variants : List String} :
    (accessorsOf variants).Nodup ↔
      variants.Nodup ∧ ∀ a ∈ variants, ∀ b ∈ variants, b ≠ a ++ "OrNull" := by
  induction variants with
  | nil => simp [accessorsOf]
  | cons name rest ih =>
    have hcons : accessorsOf (name :: rest) =
        Naming.assertAccessor name :: Naming.optionalAccessor name :: accessorsOf rest := rfl
    rw [hcons, List.nodup_cons, List.nodup_cons, List.mem_cons, assertAccessor_mem_iff,
      optionalAccessor_mem_iff, ih, List.nodup_cons, assertAccessor_eq_optionalAccessor_iff]
    constructor
    · intro h
      obtain ⟨hassert, hoptional, hnodup, hrest⟩ := h
      obtain ⟨hfirst, hmem⟩ := not_or.mp hoptional
      obtain ⟨_, hassert⟩ := not_or.mp hassert
      have hlast := (not_or.mp hassert).2
      refine ⟨⟨hmem, hnodup⟩, List.forall_mem_cons.mpr ⟨List.forall_mem_cons.mpr
        ⟨ne_append_orNull name, ?_⟩, fun a ha => List.forall_mem_cons.mpr ⟨?_, hrest a ha⟩⟩⟩
      · rintro _ hb rfl
        exact hfirst hb
      · intro heq
        exact hlast ⟨a, ha, heq⟩
    · intro h
      obtain ⟨⟨hmem, hnodup⟩, hall⟩ := h
      obtain ⟨hname, hrest⟩ := List.forall_mem_cons.mp hall
      refine ⟨?_, ?_, hnodup, fun a ha => (List.forall_mem_cons.mp (hrest a ha)).2⟩
      · rintro (heq | hin | ⟨other, hother, heq⟩)
        · exact ne_append_orNull name heq
        · exact hmem hin
        · exact (List.forall_mem_cons.mp (hrest other hother)).1 heq
      · rintro (hin | hin)
        · exact (List.forall_mem_cons.mp hname).2 _ hin rfl
        · exact hmem hin

theorem accessorNames_eq (declaration : UnionDeclaration) :
    declaration.accessorNames = accessorsOf (declaration.variants.map Variant.name) := by
  rw [accessorNames, accessors, List.flatMap_map, accessorsOf, List.flatMap_map]
  rfl

/-! ## Planned unions -/

section Planned

variable {model : Model} {symbols : SymbolProvider} {settings : Settings} {id : ShapeId}
  {declaration : UnionDeclaration}

theorem exists_union_of_plan (hplan : plan model symbols settings id = .ok declaration) :
    ∃ union, model.get? id = some union := by
  obtain ⟨union, hfind, _⟩ := bind_eq_ok_iff.mp hplan
  exact ⟨union, Model.find_eq_ok_iff.mp hfind⟩

theorem name_ofMember {member : Member} {variant : Variant}
    (h : Variant.ofMember model symbols member = .ok variant) :
    Naming.pascalCase member.name = variant.name := by
  obtain ⟨_, _, h⟩ := bind_eq_ok_iff.mp h
  obtain ⟨_, _, h⟩ := bind_eq_ok_iff.mp h
  cases h
  rfl

/-- The variants are called after the members, and their names have no clash. -/
theorem names_of_plan {union : Shape} (hget : model.get? id = some union)
    (hplan : plan model symbols settings id = .ok declaration) :
    (sortedMembers model union).map (fun member => Naming.pascalCase member.name) =
        declaration.variants.map Variant.name ∧
      ¬ NamesClash settings.unknownVariantName ((sortedMembers model union).map (·.name)) := by
  constructor
  · rw [← List.forall₂_eq_eq_eq, List.forall₂_map_left_iff, List.forall₂_map_right_iff]
    exact (variants_of_plan hget hplan).imp fun _ _ => name_ofMember
  · rw [plan_eq_of_targets hget (type_of_plan hget hplan) (targets_of_plan hget hplan)] at hplan
    obtain ⟨_, hcheck, _⟩ := bind_eq_ok_iff.mp hplan
    exact checkNames_eq_ok_iff.mp hcheck

/-- The check tells all variants apart. -/
theorem nodup_names_of_plan (hplan : plan model symbols settings id = .ok declaration) :
    (declaration.variants.map Variant.name).Nodup := by
  obtain ⟨union, hget⟩ := exists_union_of_plan hplan
  obtain ⟨hnames, hclash⟩ := names_of_plan hget hplan
  have hpairs := (not_namesClash_iff.mp hclash).2
  rw [← hnames, List.nodup_iff_pairwise_ne, List.pairwise_map]
  rw [List.pairwise_map] at hpairs
  refine hpairs.imp fun {a b} hdiffer hsame => ?_
  rw [sameVariant, hsame, Text.sameIgnoringAsciiCase, beq_self_eq_true] at hdiffer
  cases hdiffer

/-- Some member is called like another one with `OrNull` behind it, as variants go. -/
def AccessorsMeet (model : Model) (union : Shape) : Prop :=
  ∃ first ∈ union.qualifying model, ∃ second ∈ union.qualifying model,
    Naming.pascalCase second.name = Naming.pascalCase first.name ++ "OrNull"

theorem accessorNames_nodup_iff {union : Shape} (hget : model.get? id = some union)
    (hplan : plan model symbols settings id = .ok declaration) :
    declaration.accessorNames.Nodup ↔ ¬ AccessorsMeet model union := by
  have hperm : (declaration.variants.map Variant.name).Perm
      ((union.qualifying model).map fun member => Naming.pascalCase member.name) := by
    rw [← (names_of_plan hget hplan).1]
    exact (sortedMembers_perm model union).map _
  rw [accessorNames_eq, nodup_accessorsOf_iff, and_iff_right (nodup_names_of_plan hplan), AccessorsMeet]
  simp only [hperm.mem_iff, List.forall_mem_map, not_exists, not_and]

end Planned

/-- The class of a planned union has the functions that its accessors are, each once in their order.  Those of
one kind have different names; all have exactly unless some member is called like another with `OrNull`
behind it. -/
theorem plan_accessorNames (model : Model) (symbols : SymbolProvider) (settings : Settings)
    (id : ShapeId) (declaration : UnionDeclaration)
    (hplan : plan model symbols settings id = .ok declaration) :
    List.Forall₂ Declares (functionLines declaration.emit) declaration.accessorNames ∧
      (declaration.accessors.map (·.1)).Nodup ∧ (declaration.accessors.map (·.2)).Nodup ∧
      ∃ union, model.get? id = some union ∧
        (declaration.accessorNames.Nodup ↔ ¬ AccessorsMeet model union) := by
  obtain ⟨union, hget⟩ := exists_union_of_plan hplan
  have hnames := nodup_names_of_plan hplan
  have hassert : declaration.accessors.map (·.1) =
      (declaration.variants.map Variant.name).map Naming.assertAccessor := by
    rw [accessors, List.map_map, List.map_map]
    rfl
  have hoptional : declaration.accessors.map (·.2) =
      (declaration.variants.map Variant.name).map Naming.optionalAccessor := by
    rw [accessors, List.map_map, List.map_map]
    rfl
  refine ⟨functionLines_emit declaration, ?_, ?_, union, hget, accessorNames_nodup_iff hget hplan⟩
  · rw [hassert]
    exact hnames.map fun _ _ => assertAccessor_inj.mp
  · rw [hoptional]
    exact hnames.map fun _ _ => optionalAccessor_inj.mp

def choiceId : ShapeId := ⟨"com.example#Choice"⟩

/-- A union of two members with these names, both for texts. -/
def choice (first second : String) : Shape :=
  { id := choiceId, type := .union
    members := [.of choiceId first ⟨"smithy.api#String"⟩, .of choiceId second ⟨"smithy.api#String"⟩] }

def choiceModel (first second : String) : Model :=
  (Model.insert {} { id := ⟨"smithy.api#String"⟩, type := .string }).insert (choice first second)

def choiceSettings : Settings := { packageName := "com.example", runtimeVersion := "1.0.0" }

def choicePlan (first second : String) : Except CodegenError UnionDeclaration :=
  plan (choiceModel first second) (.kotlin choiceSettings) choiceSettings choiceId

theorem get?_choice (first second : String) :
    (choiceModel first second).get? choiceId = some (choice first second) := by
  rw [choiceModel, Model.get?_insert]
  exact if_pos rfl

theorem target_choice (first second : String) : ∀ member ∈ (choice first second).members,
    ∃ target, (choiceModel first second).get? member.target = some target := by
  have hget : ∃ target, (choiceModel first second).get? ⟨"smithy.api#String"⟩ = some target := by
    have hother : (choice first second).id ≠ ⟨"smithy.api#String"⟩ :=
      show choiceId ≠ ⟨"smithy.api#String"⟩ by decide
    rw [choiceModel, Model.get?_insert, if_neg hother, Model.get?_insert, if_pos rfl]
    exact ⟨_, rfl⟩
  intro member hmem
  rcases List.mem_pair.mp hmem with rfl | rfl
  · exact hget
  · exact hget

/-- Names that stand in order are planned as they stand. -/
theorem choicePlan_eq {first second : String}
    (hordered : ((choice first second).qualifying (choiceModel first second)).Pairwise fun a b =>
      Shape.byName a b = true) :
    choicePlan first second =
      let members := (choice first second).qualifying (choiceModel first second)
      checkNames choiceId choiceSettings.unknownVariantName members >>= fun _ =>
        finish (choiceModel first second) (.kotlin choiceSettings) choiceSettings choiceId
          (choice first second) members := by
  rw [choicePlan, plan_eq_of_targets (get?_choice first second) rfl (target_choice first second),
    sortedMembers_of_pairwise hordered]
  rfl

theorem plan_accessorNames_choice :
    ∃ declaration, choicePlan "bar" "foo" = .ok declaration ∧
      declaration.accessorNames = ["asBar", "asBarOrNull", "asFoo", "asFooOrNull"] ∧
      ∃ union, (choiceModel "bar" "foo").get? choiceId = some union ∧
        ¬ AccessorsMeet (choiceModel "bar" "foo") union := by
  have hseen : (choicePlan "bar" "foo").toOption.map accessorNames =
      some ["asBar", "asBarOrNull", "asFoo", "asFooOrNull"] := by
    rw [choicePlan_eq (by decide +kernel)]
    decide +kernel
  obtain ⟨declaration, hplan, hnames⟩ := map_toOption_eq_some_iff.mp hseen
  obtain ⟨_, _, _, union, hget, hnodup⟩ := plan_accessorNames (choiceModel "bar" "foo")
    (.kotlin choiceSettings) choiceSettings choiceId declaration hplan
  refine ⟨declaration, hplan, hnames, union, hget, hnodup.mp ?_⟩
  rw [hnames]
  decide

/-- A class that declares two functions of one name, both without parameters. -/
theorem not_nodup_accessorNames_choice :
    ∃ declaration, choicePlan "foo" "fooOrNull" = .ok declaration ∧
      declaration.accessorNames = ["asFoo", "asFooOrNull", "asFooOrNull", "asFooOrNullOrNull"] ∧
      ¬ declaration.accessorNames.Nodup ∧
      List.Forall₂ Declares (functionLines declaration.emit) declaration.accessorNames := by
  have hseen : (choicePlan "foo" "fooOrNull").toOption.map accessorNames =
      some ["asFoo", "asFooOrNull", "asFooOrNull", "asFooOrNullOrNull"] := by
    rw [choicePlan_eq (by decide +kernel)]
    decide +kernel
  obtain ⟨declaration, hplan, hnames⟩ := map_toOption_eq_some_iff.mp hseen
  refine ⟨declaration, hplan, hnames, ?_, functionLines_emit declaration⟩
  rw [hnames]
  decide

end UnionDeclaration

end SmithyKotlin
