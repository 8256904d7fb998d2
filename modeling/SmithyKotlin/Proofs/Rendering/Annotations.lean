import SmithyKotlin.Proofs.Rendering.Lines
import SmithyKotlin.Proofs.Structure.Planning
import SmithyKotlin.Proofs.Union.Planning
import SmithyKotlin.Proofs.Writer.Nesting

/-!
# Annotations of deprecated declarations

What is deprecated should be annotated with its message where it is declared.

* `UnionDeclaration.annotationLines_emit`: the class of a union has the annotation of the union and that of each
  variant whose member is deprecated, in their order, and no others.
* `StructureDeclaration.annotationLines_emit`: the class of a structure has that of the structure only;
  `StructureDeclaration.emit_unmarked` says that what is planned for its properties is never looked at.
* `plan_annotations`: when the annotations are those that the shape asks for (`Shape.annotations`).

The lines are taken from `Proofs/Rendering/Lines`.
-/

namespace SmithyKotlin

/-! ## Annotations among the written lines -/

def isAnnotationLine (line : String) : Bool := "@Deprecated(".toList.isPrefixOf line.toList

/-- The text that an instruction writes, if it is an annotation. -/
def Instruction.annotationLine? : Instruction → Option String
  | write line => if isAnnotationLine line then some line else none
  | openBlock header => if isAnnotationLine header then some header else none
  | closeBlock footer => if isAnnotationLine footer then some footer else none
  | _ => none

/-- The annotations that instructions write. -/
def annotationLines (instructions : List Instruction) : List String :=
  instructions.filterMap Instruction.annotationLine?

/-- They are the lines that start like an annotation, as no footer does. -/
theorem annotationLines_eq_linesStarting {instructions : List Instruction} (hbraced : Braced instructions) :
    annotationLines instructions = linesStarting ["@Deprecated("] instructions := by
  have hline (line : String) : (if isAnnotationLine line then some line else none) =
      (some line).filter (startsIn ["@Deprecated("]) := by
    rw [isAnnotationLine, Option.filter_some, startsIn, List.any_cons, List.any_nil, Bool.or_false]
  refine filterMap_eq_linesStarting fun instruction hmem => ?_
  cases instruction with
  | write line => exact hline line
  | openBlock header => exact hline header
  | closeBlock footer =>
    obtain rfl := hbraced.eq_of_mem_closeBlock hmem
    rfl
  | _ => rfl

theorem filter_annotation_self (deprecated : Option String) :
    (deprecated.map annotationLine).toList.filter (startsIn ["@Deprecated("]) =
      (deprecated.map annotationLine).toList := by
  cases deprecated with
  | none => rfl
  | some message => exact List.filter_cons_of_pos (startsIn_annotationLine message)

/-- What is planned to be annotated is annotated: the union first, then the variants in their order. -/
theorem UnionDeclaration.annotationLines_emit (declaration : UnionDeclaration) :
    annotationLines declaration.emit =
      (declaration.deprecated :: declaration.variants.map Variant.deprecated).filterMap
        (Option.map annotationLine) := by
  have hclass (variant : Variant) : startsIn ["@Deprecated("] (declaration.classSignature variant) = false :=
    startsIn_eq_false (declaration.startsIn_classSignature variant) (by decide)
  have hassert (variant : Variant) : startsIn ["@Deprecated("] (declaration.assertSignature variant) = false :=
    startsIn_eq_false (declaration.startsIn_assertSignature variant) (by decide)
  have hoptional (variant : Variant) : startsIn ["@Deprecated("] (declaration.optionalSignature variant) = false :=
    startsIn_eq_false (declaration.startsIn_optionalSignature variant) (by decide)
  rw [annotationLines_eq_linesStarting declaration.braced_emit, linesStarting_emit (by decide) (by decide),
    filter_annotation_self]
  simp [List.filter_append, filter_annotation_self, hclass, hassert, hoptional, List.filterMap_eq_flatMap_toList,
    List.flatMap_map]

/-- Of what is planned to be annotated in a structure only the class is. -/
theorem StructureDeclaration.annotationLines_emit (declaration : StructureDeclaration) :
    annotationLines declaration.emit = (declaration.deprecated.map annotationLine).toList := by
  rw [annotationLines_eq_linesStarting declaration.braced_emit, linesStarting_emit (by decide) (by decide),
    filter_annotation_self]

/-! ## Structures without deprecated members -/

/-- The property as it would be planned if its member were not deprecated. -/
def Property.unmarked (property : Property) : Property := { property with deprecated := none }

namespace StructureDeclaration

/-- The declaration as it would be planned if no member were deprecated. -/
def unmarked (declaration : StructureDeclaration) : StructureDeclaration :=
  { declaration with properties := declaration.properties.map Property.unmarked }

theorem emitAppends_map_unmarked (properties : List Property) :
    emitAppends (properties.map Property.unmarked) = emitAppends properties := by
  induction properties with
  | nil => rfl
  | cons property rest ih =>
    cases rest with
    | nil => rfl
    | cons next others => exact congrArg (property.emitAppend "," :: ·) ih

/-- What is written does not depend on which members are deprecated. -/
theorem emit_unmarked (declaration : StructureDeclaration) :
    declaration.unmarked.emit = declaration.emit := by
  have hempty : declaration.unmarked.properties.isEmpty = declaration.properties.isEmpty :=
    List.isEmpty_map
  have hsymbol : declaration.unmarked.symbol = declaration.symbol := rfl
  have hdeprecated : declaration.unmarked.deprecated = declaration.deprecated := rfl
  have hdocumentation : declaration.unmarked.classDocumentation? = declaration.classDocumentation? := by
    simp only [classDocumentation?, unmarked, List.filterMap_map, List.any_map]
    rfl
  have hsymbols : declaration.unmarked.referencedSymbols = declaration.referencedSymbols := by
    simp only [referencedSymbols, unmarked, List.map_map]
    rfl
  have hparameters : (declaration.unmarked.properties.map fun p => "    " ++ p.parameter ++ ",\n") =
      declaration.properties.map fun p => "    " ++ p.parameter ++ ",\n" :=
    List.map_map
  have hheader : declaration.unmarked.header = declaration.header := by
    have hsuperclass : declaration.unmarked.superclass = declaration.superclass := rfl
    rw [header, header, hempty, hsymbol, hsuperclass, hparameters]
  have htoString : declaration.unmarked.emitToString = declaration.emitToString := by
    have happends : emitAppends declaration.unmarked.properties = emitAppends declaration.properties :=
      emitAppends_map_unmarked declaration.properties
    rw [emitToString, emitToString, hempty, hsymbol, happends]
  have hsteps (rest : List Property) : (rest.map Property.unmarked).map (fun property => Instruction.write
      ("result = 31 * result + (" ++ property.strategy.hashExpression property.name ++ ")")) =
      rest.map fun property => Instruction.write
        ("result = 31 * result + (" ++ property.strategy.hashExpression property.name ++ ")") :=
    List.map_map
  have hhashCode : declaration.unmarked.emitHashCode = declaration.emitHashCode := by
    rw [emitHashCode, emitHashCode, unmarked]
    cases declaration.properties with
    | nil => rfl
    | cons first rest =>
      rw [List.map_cons]
      dsimp only
      rw [hsteps]
      rfl
  have hdiffers : (declaration.unmarked.properties.map fun property => Instruction.write ("if ("
      ++ property.strategy.differExpression property.name ("other." ++ property.name) ++ ") return false")) =
      declaration.properties.map fun property => Instruction.write ("if ("
      ++ property.strategy.differExpression property.name ("other." ++ property.name) ++ ") return false") :=
    List.map_map
  have hequals : declaration.unmarked.emitEquals = declaration.emitEquals := by
    rw [emitEquals, emitEquals, emitComparisons, emitComparisons, hempty, hsymbol, hdiffers]
  rw [emit, emit, hdocumentation, hdeprecated, hsymbols, hheader, htoString, hhashCode, hequals]

end StructureDeclaration

/-! ## Planned classes -/

theorem TraitMap.deprecation?_eq_none_iff {traits : TraitMap} :
    traits.deprecation? = none ↔ traits.contains Trait.deprecated = false := by
  rw [TraitMap.deprecation?, Option.map_eq_none_iff, SortedMap.contains, Option.isSome_eq_false_iff,
    Option.isNone_iff_eq_none]

/-- The annotations that a shape should have with these members: its own before theirs. -/
def Shape.annotations (shape : Shape) (members : List Member) : List String :=
  (shape.traits.deprecation? :: members.map fun member => member.traits.deprecation?).filterMap
    (Option.map annotationLine)

theorem Shape.annotations_eq_iff {shape : Shape} {members : List Member} :
    shape.annotations [] = shape.annotations members ↔
      ∀ member ∈ members, member.traits.contains Trait.deprecated = false := by
  have hown : shape.annotations members = shape.annotations [] ++
      (members.map fun member => member.traits.deprecation?).filterMap (Option.map annotationLine) := by
    rw [annotations, annotations, ← List.filterMap_append]
    rfl
  rw [hown, eq_comm, List.append_right_eq_self, List.filterMap_eq_nil_iff, List.forall_mem_map]
  simp only [Option.map_eq_none_iff, TraitMap.deprecation?_eq_none_iff]

theorem Variant.deprecated_ofMember {model : Model} {symbols : SymbolProvider} {member : Member}
    {variant : Variant} (h : ofMember model symbols member = .ok variant) :
    member.traits.deprecation? = variant.deprecated := by
  obtain ⟨_, _, h⟩ := bind_eq_ok_iff.mp h
  obtain ⟨_, _, h⟩ := bind_eq_ok_iff.mp h
  cases h
  rfl

section Planned

variable {model : Model} {symbols : SymbolProvider} {settings : Settings} {id : ShapeId} {shape : Shape}

theorem UnionDeclaration.deprecated_of_plan {declaration : UnionDeclaration}
    (hget : model.get? id = some shape) (hplan : plan model symbols settings id = .ok declaration) :
    declaration.deprecated = shape.traits.deprecation? := by
  rw [plan_eq_of_targets hget (type_of_plan hget hplan) (targets_of_plan hget hplan)] at hplan
  obtain ⟨_, _, hfinish⟩ := bind_eq_ok_iff.mp hplan
  obtain ⟨_, _, h⟩ := bind_eq_ok_iff.mp hfinish
  obtain ⟨_, _, h⟩ := bind_eq_ok_iff.mp h
  cases h
  rfl

theorem UnionDeclaration.annotationLines_of_plan {declaration : UnionDeclaration}
    (hget : model.get? id = some shape) (hplan : plan model symbols settings id = .ok declaration) :
    annotationLines declaration.emit = shape.annotations (sortedMembers model shape) := by
  have hvariants : ((sortedMembers model shape).map fun member => member.traits.deprecation?) =
      declaration.variants.map Variant.deprecated := by
    rw [← List.forall₂_eq_eq_eq, List.forall₂_map_left_iff, List.forall₂_map_right_iff]
    exact (variants_of_plan hget hplan).imp fun _ _ => Variant.deprecated_ofMember
  rw [annotationLines_emit, deprecated_of_plan hget hplan, ← hvariants]
  rfl

theorem StructureDeclaration.annotationLines_of_plan {declaration : StructureDeclaration}
    (hget : model.get? id = some shape) (hplan : plan model symbols settings id = .ok declaration) :
    annotationLines declaration.emit = shape.annotations [] := by
  obtain ⟨_, _, _, _, rfl⟩ := (plan_eq_ok_iff hget (type_of_plan hget hplan)).mp hplan
  rw [annotationLines_emit]
  show (shape.traits.deprecation?.map annotationLine).toList = _
  cases h : shape.traits.deprecation? <;> simp [Shape.annotations, h]

end Planned

/-- The class of a union has the annotation of the union, then those of its variants, and no others.  The class of
a structure has only that of the structure: it is the same as if no member were deprecated, so nothing is lost
exactly when none is. -/
theorem plan_annotations (model : Model) (symbols : SymbolProvider) (settings : Settings) (id : ShapeId)
    (shape : Shape) (hget : model.get? id = some shape) :
    (∀ declaration, UnionDeclaration.plan model symbols settings id = .ok declaration →
      annotationLines declaration.emit =
        shape.annotations (UnionDeclaration.sortedMembers model shape)) ∧
    ∀ declaration, StructureDeclaration.plan model symbols settings id = .ok declaration →
      annotationLines declaration.emit = shape.annotations [] ∧
      declaration.unmarked.emit = declaration.emit ∧
      (annotationLines declaration.emit = shape.annotations shape.members ↔
        ∀ member ∈ shape.members, member.traits.contains Trait.deprecated = false) := by
  constructor
  · intro declaration hplan
    exact UnionDeclaration.annotationLines_of_plan hget hplan
  · intro declaration hplan
    have hlines := StructureDeclaration.annotationLines_of_plan hget hplan
    exact ⟨hlines, declaration.emit_unmarked, hlines ▸ Shape.annotations_eq_iff⟩

/-! ## A deprecated member -/

namespace Deprecation

/-- The trait with a message and a version. -/
def mark : TraitMap :=
  SortedMap.empty.insert Trait.deprecated
    (.object [("message", .string "Use body."), ("since", .string "2.0")])

/-- A text that is deprecated, and another one. -/
def membersOf (container : ShapeId) : List Member :=
  [.of container "body" ⟨"smithy.api#String"⟩, .of container "text" ⟨"smithy.api#String"⟩ mark]

def note : Shape :=
  { id := ⟨"com.example#Note"⟩, type := .struct, members := membersOf ⟨"com.example#Note"⟩ }

/-- A structure that is deprecated itself. -/
def memo : Shape := { id := ⟨"com.example#Memo"⟩, type := .struct, traits := mark }

def entry : Shape :=
  { id := ⟨"com.example#Entry"⟩, type := .union, members := membersOf ⟨"com.example#Entry"⟩, traits := mark }

def noteModel : Model :=
  (((Model.insert {} { id := ⟨"smithy.api#String"⟩, type := .string }).insert note).insert memo).insert entry

def noteSettings : Settings := { packageName := "com.example", runtimeVersion := "1.0.0" }

theorem get?_note : noteModel.get? note.id = some note := by
  rw [noteModel, Model.get?_insert, if_neg (by decide), Model.get?_insert, if_neg (by decide), Model.get?_insert,
    if_pos rfl]

theorem get?_memo : noteModel.get? memo.id = some memo := by
  rw [noteModel, Model.get?_insert, if_neg (by decide), Model.get?_insert, if_pos rfl]

theorem get?_entry : noteModel.get? entry.id = some entry := by
  rw [noteModel, Model.get?_insert, if_pos rfl]

theorem plan_annotations_entry :
    (∃ declaration,
      UnionDeclaration.plan noteModel (.kotlin noteSettings) noteSettings entry.id = .ok declaration ∧
      annotationLines declaration.emit =
        entry.annotations (UnionDeclaration.sortedMembers noteModel entry) ∧
      annotationLines declaration.emit =
        ["@Deprecated(\"Use body. (since 2.0)\")", "@Deprecated(\"Use body. (since 2.0)\")"]) ∧
    ∃ declaration,
      StructureDeclaration.plan noteModel (.kotlin noteSettings) noteSettings memo.id = .ok declaration ∧
      annotationLines declaration.emit = memo.annotations memo.members ∧
      annotationLines declaration.emit = ["@Deprecated(\"Use body. (since 2.0)\")"] := by
  constructor
  · have hordered : (entry.qualifying noteModel).Pairwise fun a b => Shape.byName a b = true := by
      decide +kernel
    have hwritten : entry.annotations (UnionDeclaration.sortedMembers noteModel entry) =
        ["@Deprecated(\"Use body. (since 2.0)\")", "@Deprecated(\"Use body. (since 2.0)\")"] := by
      rw [UnionDeclaration.sortedMembers_of_pairwise hordered]
      decide +kernel
    have hseen : (UnionDeclaration.plan noteModel (.kotlin noteSettings) noteSettings
        entry.id).toOption.map (fun declaration => declaration.variants.map (·.deprecated)) =
        some [none, some "Use body. (since 2.0)"] := by
      rw [UnionDeclaration.plan_eq_of_pairwise get?_entry rfl (by decide +kernel) hordered]
      decide +kernel
    obtain ⟨declaration, hplan, _⟩ := map_toOption_eq_some_iff.mp hseen
    have hlines := (plan_annotations noteModel (.kotlin noteSettings) noteSettings entry.id entry get?_entry).1
      declaration hplan
    exact ⟨declaration, hplan, hlines, hlines.trans hwritten⟩
  · have hseen : (StructureDeclaration.plan noteModel (.kotlin noteSettings) noteSettings
        memo.id).toOption.map (·.deprecated) = some (some "Use body. (since 2.0)") := by
      decide +kernel
    obtain ⟨declaration, hplan, _⟩ := map_toOption_eq_some_iff.mp hseen
    obtain ⟨hlines, _, hcomplete⟩ := (plan_annotations noteModel (.kotlin noteSettings) noteSettings memo.id memo
      get?_memo).2 declaration hplan
    have hown : memo.annotations [] = ["@Deprecated(\"Use body. (since 2.0)\")"] := by
      decide +kernel
    exact ⟨declaration, hplan, hcomplete.mpr (List.forall_mem_nil _), hlines.trans hown⟩

/-- The annotation of the member is planned, but it is neither a line of the class nor inside of its header. -/
theorem not_annotated_note :
    note.annotations note.members = ["@Deprecated(\"Use body. (since 2.0)\")"] ∧
      ∃ declaration,
        StructureDeclaration.plan noteModel (.kotlin noteSettings) noteSettings note.id = .ok declaration ∧
        declaration.properties.map (·.deprecated) = [none, some "Use body. (since 2.0)"] ∧
        annotationLines declaration.emit = [] ∧ '@' ∉ declaration.header.toList := by
  have hseen : (StructureDeclaration.plan noteModel (.kotlin noteSettings) noteSettings
      note.id).toOption.map (fun declaration => (declaration.properties.map (·.deprecated),
        declaration.header.toList.contains '@')) =
      some ([none, some "Use body. (since 2.0)"], false) := by
    decide +kernel
  obtain ⟨declaration, hplan, hparts⟩ := map_toOption_eq_some_iff.mp hseen
  obtain ⟨hmarks, hheader⟩ := Prod.mk.inj hparts
  rw [List.contains_eq_mem, decide_eq_false_iff_not] at hheader
  have hlines : annotationLines declaration.emit = note.annotations [] :=
    StructureDeclaration.annotationLines_of_plan get?_note hplan
  exact ⟨by decide +kernel, declaration, hplan, hmarks, hlines, hheader⟩

end Deprecation

end SmithyKotlin
