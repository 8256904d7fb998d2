import SmithyKotlin.Proofs.Writer.Dependencies
import SmithyKotlin.Proofs.Writer.Imports
import SmithyKotlin.Rendering.SourceFile

/-!
# What declarations refer to

* `Emission`: a file is one declaration between fixed lines, so the declaration and its instructions say all about
  it (`SourceFile.render_eq_ok_iff`).
* `referring`: the instructions that refer to a symbol.
* `StructureDeclaration.references_emit`: those of a structure refer to its superclass and to the types of its
  properties.
* `UnionDeclaration.mem_references_emit`: those of a union refer to the types of its values, but for types that
  share their name with a variant.

What is written beside the references is left to `Proofs/Rendering/Lines`.
-/

namespace SmithyKotlin

/-- The types that instructions refer to by their names only. -/
def shortReferences (instructions : List Instruction) : List TypeName :=
  ((references instructions).filter Symbol.isShort).map Symbol.typeName

theorem mem_shortReferences_iff {instructions : List Instruction} {type : TypeName} :
    type ∈ shortReferences instructions ↔
      ∃ symbol ∈ references instructions, symbol.isShort = true ∧ symbol.typeName = type := by
  simp only [shortReferences, List.mem_map, List.mem_filter, and_assoc]

/-- A declaration as a file has it: the symbol that it declares, and what writes it. -/
structure Emission where
  symbol : Symbol
  instructions : List Instruction

namespace Emission

/-- The imports of the file. -/
def imports (settings : Settings) (emission : Emission) : List String :=
  (({ package := settings.modelPackage } : Writer).run emission.instructions).importPaths

/-- The types whose names stand in the file without a package, the declared class first. -/
def shortTypes (emission : Emission) : List TypeName :=
  emission.symbol.typeName :: shortReferences emission.instructions

/-- A symbol is written with its package, or its type is among those that are not. -/
theorem referenceText_cases {emission : Emission} {symbol : Symbol}
    (hmem : symbol ∈ references emission.instructions) :
    (symbol.typeName ∈ emission.shortTypes ∧
        symbol.referenceText = symbol.marked symbol.name) ∨
      symbol.referenceText = symbol.marked (symbol.package ++ "." ++ symbol.name) := by
  rw [Symbol.referenceText_eq]
  cases hshort : symbol.isShort with
  | false => exact .inr rfl
  | true =>
    have htype := mem_shortReferences_iff.mpr ⟨symbol, hmem, hshort, rfl⟩
    exact .inl ⟨List.mem_cons_of_mem _ htype, rfl⟩

/-- The file around the declaration. -/
def file (settings : Settings) (shape : ShapeId) (emission : Emission) : SourceFile :=
  .ofInstructions settings shape emission.symbol.name emission.instructions

end Emission

namespace SourceFile

/-- The declaration that goes into the file of a union or structure. -/
def emission (model : Model) (symbols : SymbolProvider) (settings : Settings) (shape : Shape) :
    Except CodegenError Emission :=
  match shape.type with
  | .union => (UnionDeclaration.plan model symbols settings shape.id).map fun declaration =>
    ⟨declaration.symbol, declaration.emit⟩
  | .struct => (StructureDeclaration.plan model symbols settings shape.id).map fun declaration =>
    ⟨declaration.symbol, declaration.emit⟩
  | type => .error (.notRendered type shape.id)

/-- The file of a shape is the file around its declaration. -/
theorem render_eq_map_emission (model : Model) (symbols : SymbolProvider) (settings : Settings)
    (shape : Shape) :
    render model symbols settings shape =
      (emission model symbols settings shape).map (Emission.file settings shape.id) := by
  rw [render, emission]
  cases shape.type with
  | union => cases UnionDeclaration.plan model symbols settings shape.id <;> rfl
  | struct => cases StructureDeclaration.plan model symbols settings shape.id <;> rfl
  | _ => rfl

theorem render_eq_ok_iff {model : Model} {symbols : SymbolProvider} {settings : Settings}
    {shape : Shape} {file : SourceFile} :
    render model symbols settings shape = .ok file ↔
      ∃ declared, emission model symbols settings shape = .ok declared ∧
        declared.file settings shape.id = file := by
  rw [render_eq_map_emission, map_eq_ok_iff]

end SourceFile

/-! ## Instructions that refer to symbols -/

/-- The instructions that refer to a symbol. -/
def referring (instructions : List Instruction) : List Instruction :=
  instructions.filter (·.symbol?.isSome)

theorem referring_append (first second : List Instruction) :
    referring (first ++ second) = referring first ++ referring second :=
  List.filter_append first second

theorem referring_cons_of_none {instruction : Instruction} {rest : List Instruction}
    (h : instruction.symbol? = none) : referring (instruction :: rest) = referring rest :=
  List.filter_cons_of_neg (by rw [h]; exact Bool.false_ne_true)

theorem references_referring (instructions : List Instruction) :
    references (referring instructions) = references instructions := by
  rw [references, referring, List.filterMap_filter]
  refine List.filterMap_congr fun instruction _ => ?_
  cases instruction <;> rfl

theorem mentioned_referring (instructions : List Instruction) :
    mentioned (referring instructions) = mentioned instructions := by
  rw [mentioned, referring, List.filterMap_filter]
  refine List.filterMap_congr fun instruction _ => ?_
  cases instruction <;> rfl

theorem referring_block (header footer : String) (body : List Instruction) :
    referring (block header footer body) = referring body := by
  rw [block, referring_append, referring_cons_of_none rfl]
  exact List.append_nil _

theorem referring_emitDocumentation (documentation deprecated : Option String) :
    referring (emitDocumentation documentation deprecated) = [] := by
  have hcomment : referring (documentationComment documentation) = [] := by
    cases documentation with
    | none => rfl
    | some text =>
      rw [documentationComment]
      split <;> rfl
  have hannotation : referring ( deprecationAnnotation deprecated) = [] := by
    cases deprecated <;> rfl
  rw [emitDocumentation, referring_append, hcomment, hannotation, List.append_nil]

theorem referring_map_write {α : Type} (line : α → String) (xs : List α) :
    referring (xs.map fun x => .write (line x)) = [] := by
  induction xs with
  | nil => rfl
  | cons x rest ih => rw [List.map_cons, referring_cons_of_none rfl, ih]

theorem referring_map_reference (symbols : List Symbol) :
    referring (symbols.map .reference) = symbols.map .reference :=
  List.filter_eq_self.mpr fun instruction hmem => by
    obtain ⟨symbol, _, rfl⟩ := List.mem_map.mp hmem
    rfl

theorem references_map_reference (symbols : List Symbol) :
    references (symbols.map .reference) = symbols := by
  rw [references, List.filterMap_map]
  exact List.filterMap_some

theorem mem_referring_flatMap {α : Type} {xs : List α} {f : α → List Instruction}
    {instruction : Instruction} :
    instruction ∈ referring (xs.flatMap f) ↔ ∃ x ∈ xs, instruction ∈ referring (f x) := by
  simp only [referring, List.mem_filter, List.mem_flatMap]
  constructor
  · rintro ⟨⟨x, hx, hmem⟩, hrefers⟩
    exact ⟨x, hx, hmem, hrefers⟩
  · rintro ⟨x, hx, hmem, hrefers⟩
    exact ⟨⟨x, hx, hmem⟩, hrefers⟩

/-! ## Structures -/

namespace StructureDeclaration

theorem referring_emitAppends (properties : List Property) :
    referring (emitAppends properties) = [] := by
  induction properties with
  | nil => rfl
  | cons property rest ih =>
    cases rest with
    | nil => rfl
    | cons next others =>
      show referring (property.emitAppend "," :: emitAppends (next :: others)) = []
      rw [referring_cons_of_none rfl, ih]

theorem referring_emitToString (declaration : StructureDeclaration) :
    referring declaration.emitToString = [] := by
  rw [emitToString]
  split
  · rfl
  · rw [referring_block, List.cons_append, referring_cons_of_none rfl, referring_append,
      referring_emitAppends]
    rfl

theorem referring_emitHashCode (declaration : StructureDeclaration) :
    referring declaration.emitHashCode = [] := by
  rw [emitHashCode]
  split
  · rfl
  · rw [referring_block, List.cons_append, referring_cons_of_none rfl, referring_append,
      referring_map_write]
    rfl

theorem referring_emitEquals (declaration : StructureDeclaration) :
    referring declaration.emitEquals = [] := by
  have hcomparisons : referring declaration.emitComparisons = [] := by
    rw [emitComparisons]
    split
    · rfl
    · rw [referring_append, referring_map_write]
      rfl
  rw [emitEquals, referring_block, referring_append, referring_append, hcomparisons]
  rfl

/-- Only the header of a structure refers to symbols, to all of them in the short form. -/
theorem referring_emit (declaration : StructureDeclaration) :
    referring declaration.emit = declaration.referencedSymbols.map .reference := by
  rw [emit, referring_append, referring_append, referring_emitDocumentation,
    referring_map_reference, referring_block, referring_append, referring_append,
    referring_emitToString, referring_cons_of_none rfl, referring_emitHashCode,
    referring_cons_of_none rfl, referring_emitEquals]
  exact List.append_nil _

theorem references_emit (declaration : StructureDeclaration) :
    references declaration.emit = declaration.referencedSymbols := by
  rw [← references_referring, referring_emit, references_map_reference]

theorem mentioned_emit (declaration : StructureDeclaration) :
    mentioned declaration.emit = declaration.referencedSymbols := by
  rw [← mentioned_referring, referring_emit, mentioned, List.filterMap_map]
  exact List.filterMap_some

end StructureDeclaration

/-! ## Unions -/

namespace UnionDeclaration

theorem referring_emitEquality (variant : Variant) : referring (emitEquality variant) = [] := by
  rw [emitEquality, referring_append, referring_block, referring_cons_of_none rfl,
    referring_cons_of_none rfl, referring_block]
  rfl

/-- A value type is referred to in either form. -/
theorem symbol?_valueReference (shadowed : List String) (symbol : Symbol) :
    (valueReference shadowed symbol).instruction.symbol? = some symbol := by
  rw [valueReference]
  split <;> rfl

theorem referring_cons_valueReference (shadowed : List String) (symbol : Symbol)
    (rest : List Instruction) :
    referring ((valueReference shadowed symbol).instruction :: rest) =
      (valueReference shadowed symbol).instruction :: referring rest :=
  List.filter_cons_of_pos (by rw [symbol?_valueReference]; rfl)

theorem referring_emitVariant (unionName : String) (shadowed : List String) (variant : Variant) :
    referring (emitVariant unionName shadowed variant) =
      [(valueReference shadowed variant.symbol).instruction] := by
  have hbody (declaration : String) :
      referring (if variant.strategy.needsOwnEquality then
        block (declaration ++ " \x7b") "\x7d" (emitEquality variant)
      else [.write declaration]) = [] := by
    split
    · rw [referring_block, referring_emitEquality]
    · rfl
  rw [emitVariant, referring_append, referring_emitDocumentation, referring_cons_valueReference, hbody,
    List.nil_append]

/-- The optional accessor refers to the type of the value in its nullable form. -/
theorem referring_emitAccessors (unionName : String) (shadowed : List String)
    (variant : Variant) :
    referring (emitAccessors unionName shadowed variant) =
      [(valueReference shadowed variant.symbol).instruction,
        (valueReference shadowed (variant.symbol.asNullable variant.symbol.boxed)).instruction] := by
  rw [emitAccessors, referring_cons_valueReference, referring_cons_valueReference]
  rfl

/-- A union refers to the types of its values in both their forms. -/
theorem mem_referring_emit {declaration : UnionDeclaration} {instruction : Instruction} :
    instruction ∈ referring declaration.emit ↔ ∃ variant ∈ declaration.variants,
      instruction = (valueReference declaration.variantNames variant.symbol).instruction ∨
      instruction = (valueReference declaration.variantNames
        (variant.symbol.asNullable variant.symbol.boxed)).instruction := by
  have hvariant (unionName : String) (variant : Variant) :
      referring (emitVariant unionName declaration.variantNames variant ++ [.blank]) =
        [(valueReference declaration.variantNames variant.symbol).instruction] := by
    rw [referring_append, referring_emitVariant]
    rfl
  have haccessors (unionName : String) (variant : Variant) :
      referring (.blank :: emitAccessors unionName declaration.variantNames variant) =
        [(valueReference declaration.variantNames variant.symbol).instruction,
          (valueReference declaration.variantNames
            (variant.symbol.asNullable variant.symbol.boxed)).instruction] := by
    rw [referring_cons_of_none rfl, referring_emitAccessors]
  have hunknown (unionName : String) :
      referring (emitUnknown unionName declaration.unknownName) = [] := rfl
  rw [emit, referring_append, referring_emitDocumentation, referring_block, List.nil_append,
    emitBody, referring_append, referring_append, hunknown, List.append_nil, List.mem_append,
    mem_referring_flatMap, mem_referring_flatMap]
  simp only [hvariant, haccessors, List.mem_singleton, List.mem_pair]
  constructor
  · intro h
    rcases h with ⟨variant, hmem, heq⟩ | h
    · exact ⟨variant, hmem, .inl heq⟩
    · exact h
  · exact .inr

/-- Where a variant hides its name, a value type is written with its package. -/
theorem reference_eq_valueReference_iff {shadowed : List String} {symbol value : Symbol} :
    .reference symbol = (valueReference shadowed value).instruction ↔
      value.rawName ∉ shadowed ∧ symbol = value := by
  rw [valueReference]
  split
  · rename_i hhidden
    rw [List.contains_iff_mem] at hhidden
    simp [hhidden]
  · rename_i hshown
    rw [List.contains_iff_mem] at hshown
    simp [hshown]

/-- A union refers to the types of its values in both forms, except for hidden ones. -/
theorem mem_references_emit {declaration : UnionDeclaration} {symbol : Symbol} :
    symbol ∈ references declaration.emit ↔
      ∃ variant ∈ declaration.variants, variant.symbol.rawName ∉ declaration.variantNames ∧
        (symbol = variant.symbol ∨ symbol = variant.symbol.asNullable variant.symbol.boxed) := by
  have hname (variant : Variant) :
      (variant.symbol.asNullable variant.symbol.boxed).rawName = variant.symbol.rawName := rfl
  rw [← references_referring, mem_references_iff, mem_referring_emit]
  simp only [reference_eq_valueReference_iff, hname, ← and_or_left]

theorem mem_mentioned_emit {declaration : UnionDeclaration} {symbol : Symbol} :
    symbol ∈ mentioned declaration.emit ↔ ∃ variant ∈ declaration.variants,
      symbol = variant.symbol ∨ symbol = variant.symbol.asNullable variant.symbol.boxed := by
  rw [← mentioned_referring, mentioned, List.mem_filterMap]
  simp only [mem_referring_emit]
  constructor
  · rintro ⟨_, ⟨variant, hmem, rfl | rfl⟩, hsymbol⟩
    · rw [symbol?_valueReference, Option.some.injEq] at hsymbol
      exact ⟨variant, hmem, .inl hsymbol.symm⟩
    · rw [symbol?_valueReference, Option.some.injEq] at hsymbol
      exact ⟨variant, hmem, .inr hsymbol.symm⟩
  · rintro ⟨variant, hmem, rfl | rfl⟩
    · exact ⟨_, ⟨variant, hmem, .inl rfl⟩, symbol?_valueReference _ _⟩
    · exact ⟨_, ⟨variant, hmem, .inr rfl⟩, symbol?_valueReference _ _⟩

end UnionDeclaration

end SmithyKotlin
