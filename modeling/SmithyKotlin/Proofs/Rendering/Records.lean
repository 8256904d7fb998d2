import SmithyKotlin.Proofs.Rendering.Emission
import SmithyKotlin.Proofs.Rendering.ShortTypes
import SmithyKotlin.Proofs.Structure.Messages

/-!
# What a declaration leaves with its writer

References stand all over the instructions of a declaration, some of them in blocks, some with a package and some in
the nullable form.

* `Recorded`: behind the last instruction a fresh writer knows exactly the imports of the symbols that are written
  by their names, and the dependencies of all symbols, both in order.
* `UnionDeclaration.recorded_of_plan`, `StructureDeclaration.recorded_of_plan`: which symbols these are (`Refers`).
* `plan_recorded` puts the two together; the provider of the symbols does not matter.
-/

namespace SmithyKotlin

/-- Whether a file of the package has to import the type when it is written by its name. -/
def Symbol.NeedsImport (package : String) (symbol : Symbol) : Prop :=
  symbol.package ≠ "" ∧ ¬ "kotlin".toList <+: symbol.package.toList ∧ symbol.package ≠ package

theorem Symbol.isBuiltin_eq_false_iff (symbol : Symbol) :
    symbol.isBuiltin = false ↔ symbol.package ≠ "" ∧ ¬ "kotlin".toList <+: symbol.package.toList := by
  rw [isBuiltin, Bool.or_eq_false_iff, String.isEmpty_eq_false_iff, ← Bool.not_eq_true, List.isPrefixOf_iff_prefix]

/-- A line is written that has the text in it. -/
def Writes (instructions : List Instruction) (text : String) : Prop :=
  ∃ before behind, .write (before ++ text ++ behind) ∈ instructions ∨
    .openBlock (before ++ text ++ behind) ∈ instructions

/-- The writer of a file of the package behind the instructions. -/
def written (package : String) (instructions : List Instruction) : Writer :=
  ({ package } : Writer).run instructions

/-- The instructions write the symbols, the named ones by their names and the others with their packages, and the
writer has noted what that takes and nothing else. -/
structure Recorded (package : String) (instructions : List Instruction) (all named : Symbol → Prop) : Prop where
  writes_named : ∀ symbol, named symbol → Writes instructions symbol.referenceText
  writes_others : ∀ symbol, all symbol → ¬ named symbol → Writes instructions symbol.display
  imports_ascending : (written package instructions).importPaths.Pairwise (· < ·)
  mem_imports : ∀ path, path ∈ (written package instructions).importPaths ↔
    ∃ symbol, named symbol ∧ symbol.NeedsImport package ∧ path = symbol.package ++ "." ++ symbol.rawName
  dependencies_strict : Dependency.Strict (written package instructions).dependencies
  mem_dependencies : ∀ dependency, dependency ∈ (written package instructions).dependencies ↔
    ∃ symbol, all symbol ∧ dependency ∈ symbol.dependencies

/-- Imports are in order, each of them once. -/
theorem pairwise_importPaths (writer : Writer) : writer.importPaths.Pairwise (· < ·) := by
  rw [Writer.importPaths, SortedMap.keys, List.pairwise_map]
  exact writer.imports.ascending

/-- A file has the imports of the types that are written by their names. -/
theorem mem_importPaths_written {package : String} {instructions : List Instruction} {named : Symbol → Prop}
    (hnamed : ∀ type, (∃ symbol ∈ references instructions, symbol.typeName = type) ↔
      ∃ symbol, named symbol ∧ symbol.typeName = type) (path : String) :
    path ∈ (written package instructions).importPaths ↔
      ∃ symbol, named symbol ∧ symbol.NeedsImport package ∧ path = symbol.package ++ "." ++ symbol.rawName := by
  let imported (type : TypeName) : Prop :=
    (type.package ≠ "" ∧ ¬ "kotlin".toList <+: type.package.toList) ∧ type.package ≠ package ∧ path = type.path
  have hmem : path ∈ (written package instructions).importPaths ↔
      ∃ symbol ∈ references instructions, imported symbol.typeName := by
    rw [written, mem_imports_iff]
    simp only [Symbol.isBuiltin_eq_false_iff]
    rfl
  have hneeds (symbol : Symbol) : symbol.NeedsImport package ∧
      path = symbol.package ++ "." ++ symbol.rawName ↔ imported symbol.typeName := by
    rw [Symbol.NeedsImport, and_assoc, and_assoc]
    exact and_assoc.symm
  -- both sides look at the type of a symbol only
  simp only [hmem, hneeds]
  constructor
  · intro h
    obtain ⟨symbol, hreference, himported⟩ := h
    obtain ⟨other, hother, htype⟩ := (hnamed symbol.typeName).mp ⟨symbol, hreference, rfl⟩
    exact ⟨other, hother, htype ▸ himported⟩
  · intro h
    obtain ⟨symbol, hsymbol, himported⟩ := h
    obtain ⟨other, hother, htype⟩ := (hnamed symbol.typeName).mpr ⟨symbol, hsymbol, rfl⟩
    exact ⟨other, hother, htype ▸ himported⟩

/-- A file depends on what the symbols that it mentions depend on. -/
theorem mem_dependencies_written {package : String} {instructions : List Instruction} {dependency : Dependency} :
    dependency ∈ (written package instructions).dependencies ↔
      ∃ symbol ∈ mentioned instructions, dependency ∈ symbol.dependencies := by
  rw [written, Writer.mem_dependencies_run]
  exact or_iff_right List.not_mem_nil

theorem strict_dependencies_written (package : String) (instructions : List Instruction) :
    Dependency.Strict (written package instructions).dependencies := by
  have hempty : Dependency.Strict [] := List.Pairwise.nil
  exact Writer.strict_dependencies_run hempty instructions

/-- The symbols that a provider has for members. -/
def MemberSymbol (model : Model) (symbols : SymbolProvider) (members : List Member) (symbol : Symbol) : Prop :=
  ∃ member ∈ members, symbols.memberSymbol model member = .ok symbol

variable {model : Model} {symbols : SymbolProvider} {settings : Settings} {id : ShapeId} {shape : Shape}

/-! ## Unions -/

namespace UnionDeclaration

/-- The symbols of the variants are those of the members that became variants. -/
theorem memberSymbol_iff {declaration : UnionDeclaration} (hget : model.get? id = some shape)
    (hplan : plan model symbols settings id = .ok declaration) (symbol : Symbol) :
    MemberSymbol model symbols (shape.qualifying model) symbol ↔
      ∃ variant ∈ declaration.variants, variant.symbol = symbol := by
  have hsymbol (member : Member) (variant : Variant) (h : Variant.ofMember model symbols member = .ok variant) :
      variant.symbol = symbol ↔ symbols.memberSymbol model member = .ok symbol := by
    obtain ⟨target, _, h⟩ := bind_eq_ok_iff.mp h
    obtain ⟨found, hfound, h⟩ := bind_eq_ok_iff.mp h
    cases h
    rw [hfound, Except.ok.injEq]
  rw [exists_mem_iff_of_forall₂ (variants_of_plan hget hplan) hsymbol, MemberSymbol]
  simp only [(sortedMembers_perm model shape).mem_iff]

/-- Each value type stands in the declaration of its asserting accessor. -/
theorem writes_valueReference {declaration : UnionDeclaration} {variant : Variant}
    (hmem : variant ∈ declaration.variants) :
    Writes declaration.emit (valueReference declaration.variantNames variant.symbol).text := by
  refine ⟨"public fun " ++ variant.assertAccessor ++ "(): ",
    " = (this as " ++ (declaration.symbol.qualifiedName ++ "." ++ variant.name) ++ ").value", .inl ?_⟩
  have haccessors : .write ("public fun " ++ variant.assertAccessor ++ "(): " ++
      (valueReference declaration.variantNames variant.symbol).text ++
      (" = (this as " ++ (declaration.symbol.qualifiedName ++ "." ++ variant.name) ++ ").value")) ∈
      emitAccessors declaration.symbol.qualifiedName declaration.variantNames variant := by
    simp [emitAccessors, String.append_assoc]
  refine List.mem_append_right _ (List.mem_cons_of_mem _ (List.mem_append_left _ (List.mem_append_right _ ?_)))
  exact List.mem_flatMap.mpr ⟨variant, hmem, List.mem_cons_of_mem .blank haccessors⟩

/-- The declaration of a union is recorded with its values, those named that no variant hides. -/
theorem recorded_of_plan {declaration : UnionDeclaration} (hget : model.get? id = some shape)
    (hplan : plan model symbols settings id = .ok declaration) (package : String) :
    Recorded package declaration.emit (MemberSymbol model symbols (shape.qualifying model))
      (fun symbol => MemberSymbol model symbols (shape.qualifying model) symbol ∧
        symbol.rawName ∉ declaration.variantNames) := by
  have hmember := memberSymbol_iff hget hplan
  have hnamed (type : TypeName) : (∃ symbol ∈ references declaration.emit, symbol.typeName = type) ↔
      ∃ symbol, (MemberSymbol model symbols (shape.qualifying model) symbol ∧
        symbol.rawName ∉ declaration.variantNames) ∧ symbol.typeName = type := by
    simp only [mem_references_emit, hmember]
    constructor
    · intro h
      obtain ⟨_, ⟨variant, hmem, hshown, hsymbol⟩, htype⟩ := h
      refine ⟨variant.symbol, ⟨⟨variant, hmem, rfl⟩, hshown⟩, ?_⟩
      rcases hsymbol with rfl | rfl
      · exact htype
      · exact htype
    · intro h
      obtain ⟨_, ⟨⟨variant, hmem, rfl⟩, hshown⟩, htype⟩ := h
      exact ⟨variant.symbol, ⟨variant, hmem, hshown, .inl rfl⟩, htype⟩
  refine ⟨?_, ?_, pairwise_importPaths _, mem_importPaths_written hnamed, strict_dependencies_written _ _, ?_⟩
  · intro symbol h
    obtain ⟨hsymbol, hshown⟩ := h
    obtain ⟨variant, hmem, rfl⟩ := (hmember symbol).mp hsymbol
    have hwrites := writes_valueReference hmem
    rwa [valueReference, if_neg (by rwa [List.contains_iff_mem])] at hwrites
  · intro symbol hsymbol hhidden
    have hname : symbol.rawName ∈ declaration.variantNames := by
      by_contra hshown
      exact hhidden ⟨hsymbol, hshown⟩
    obtain ⟨variant, hmem, rfl⟩ := (hmember symbol).mp hsymbol
    have hwrites := writes_valueReference hmem
    rwa [valueReference, if_pos (by rwa [List.contains_iff_mem])] at hwrites
  · intro dependency
    simp only [mem_dependencies_written, mem_mentioned_emit, hmember]
    -- the nullable form of a symbol has the same dependencies
    constructor
    · intro h
      obtain ⟨_, ⟨variant, hmem, hsymbol⟩, hdependency⟩ := h
      refine ⟨variant.symbol, ⟨variant, hmem, rfl⟩, ?_⟩
      rcases hsymbol with rfl | rfl
      · exact hdependency
      · exact hdependency
    · intro h
      obtain ⟨_, ⟨variant, hmem, rfl⟩, hdependency⟩ := h
      exact ⟨variant.symbol, ⟨variant, hmem, .inl rfl⟩, hdependency⟩

end UnionDeclaration

/-! ## Structures -/

namespace StructureDeclaration

/-- The symbols of a structure are those of its members and, for an error, that of its superclass. -/
def Refers (model : Model) (symbols : SymbolProvider) (settings : Settings) (shape : Shape) (symbol : Symbol) : Prop :=
  MemberSymbol model symbols shape.members symbol ∨ shape.isError = true ∧ symbol = serviceException settings

theorem mem_referencedSymbols_iff {declaration : StructureDeclaration} (hget : model.get? id = some shape)
    (hplan : plan model symbols settings id = .ok declaration) (symbol : Symbol) :
    symbol ∈ declaration.referencedSymbols ↔ Refers model symbols settings shape symbol := by
  obtain ⟨properties, _, hproperties, _, rfl⟩ :=
    (plan_eq_ok_iff hget (type_of_plan hget hplan)).mp hplan
  have hsymbol (member : Member) (property : Property)
      (h : Property.ofMember model symbols shape.isError member = .ok property) :
      property.symbol = symbol ↔ symbols.memberSymbol model member = .ok symbol := by
    rw [Property.symbol_ofMember h, Except.ok.injEq]
  have hmembers := exists_mem_iff_of_forall₂ hproperties hsymbol
  rw [referencedSymbols, List.mem_append, List.mem_map, hmembers, or_comm, Refers, MemberSymbol]
  cases shape.isError with
  | false => simp
  | true => simp [eq_comm]

theorem writes_referenceText {declaration : StructureDeclaration} {symbol : Symbol}
    (hmem : symbol ∈ declaration.referencedSymbols) : Writes declaration.emit symbol.referenceText := by
  have hheader : .openBlock declaration.header ∈ declaration.emit :=
    List.mem_append_right _ List.mem_cons_self
  have hwrites (before behind : String) (h : declaration.header = before ++ symbol.referenceText ++ behind) :
      Writes declaration.emit symbol.referenceText := ⟨before, behind, .inr (h ▸ hheader)⟩
  rcases List.mem_append.mp hmem with hsuper | hproperty
  · rw [Option.mem_toList] at hsuper
    rw [header, hsuper] at hwrites
    split at hwrites
    · exact hwrites ("public class " ++ declaration.symbol.name ++ " : ") ("()" ++ " \x7b")
        (by simp only [Option.elim_some, String.append_assoc])
    · exact hwrites ("public class " ++ declaration.symbol.name ++ "(\n" ++
          String.join (declaration.properties.map fun p => "    " ++ p.parameter ++ ",\n") ++ ")" ++ " : ")
        ("()" ++ " \x7b") (by simp only [Option.elim_some, String.append_assoc])
  · obtain ⟨property, hin, rfl⟩ := List.mem_map.mp hproperty
    obtain ⟨before, behind, hsplit⟩ := parameter_in_header hin
    rw [Property.parameter] at hsplit
    exact hwrites (before ++ "    " ++
        (if property.overridesMessage then "override val " else "public val ") ++ property.name ++ ": ")
      (property.default.elim "" (" = " ++ ·) ++ ",\n" ++ behind)
      (by rw [hsplit]; simp only [String.append_assoc])

/-- The declaration of a structure is recorded with all its symbols, each of them named. -/
theorem recorded_of_plan {declaration : StructureDeclaration} (hget : model.get? id = some shape)
    (hplan : plan model symbols settings id = .ok declaration) (package : String) :
    Recorded package declaration.emit (Refers model symbols settings shape)
      (Refers model symbols settings shape) := by
  have hrefers := mem_referencedSymbols_iff hget hplan
  refine ⟨?_, ?_, pairwise_importPaths _, ?_, strict_dependencies_written _ _, ?_⟩
  · intro symbol hsymbol
    exact writes_referenceText ((hrefers symbol).mpr hsymbol)
  · intro symbol hsymbol hother
    exact absurd hsymbol hother
  · refine mem_importPaths_written fun type => ?_
    simp only [references_emit, hrefers]
  · intro dependency
    simp only [mem_dependencies_written, mentioned_emit, hrefers]

end StructureDeclaration

/-- A fresh writer behind a declaration knows the imports and dependencies of its symbols and nothing else. -/
theorem plan_recorded (model : Model) (symbols : SymbolProvider) (settings : Settings) (id : ShapeId) (shape : Shape)
    (hget : model.get? id = some shape) (package : String) :
    (∀ declaration, UnionDeclaration.plan model symbols settings id = .ok declaration →
      Recorded package declaration.emit (MemberSymbol model symbols (shape.qualifying model))
        (fun symbol => MemberSymbol model symbols (shape.qualifying model) symbol ∧
          symbol.rawName ∉ declaration.variantNames)) ∧
    ∀ declaration, StructureDeclaration.plan model symbols settings id = .ok declaration →
      Recorded package declaration.emit (StructureDeclaration.Refers model symbols settings shape)
        (StructureDeclaration.Refers model symbols settings shape) :=
  ⟨fun _ hplan => UnionDeclaration.recorded_of_plan hget hplan package,
    fun _ hplan => StructureDeclaration.recorded_of_plan hget hplan package⟩

/-! ## A hidden type -/

namespace Recorded

/-- The variant of the first member hides its own type and that of the second one. -/
def entry : Shape :=
  { id := ⟨"com.example#Entry"⟩, type := .union
    members := [.of ⟨"com.example#Entry"⟩ "instant" ⟨"smithy.api#Timestamp"⟩,
      .of ⟨"com.example#Entry"⟩ "stamp" ⟨"smithy.api#Timestamp"⟩,
      .of ⟨"com.example#Entry"⟩ "total" ⟨"smithy.api#BigInteger"⟩] }

def failure : Shape :=
  { id := ⟨"com.example#Failure"⟩, type := .struct
    members := [.of ⟨"com.example#Failure"⟩ "instant" ⟨"smithy.api#Timestamp"⟩]
    traits := SortedMap.empty.insert Trait.error (.string "client") }

def entryModel : Model :=
  [{ id := ⟨"smithy.api#Timestamp"⟩, type := .timestamp },
    { id := ⟨"smithy.api#BigInteger"⟩, type := .bigInteger }, failure, entry].foldl Model.insert {}

def entrySettings : Settings := { packageName := "com.example", runtimeVersion := "1.0.0" }

theorem get?_entry : entryModel.get? entry.id = some entry := by
  simp only [entryModel, List.foldl_cons, List.foldl_nil]
  rw [Model.get?_insert, if_pos rfl]

theorem get?_failure : entryModel.get? failure.id = some failure := by
  simp only [entryModel, List.foldl_cons, List.foldl_nil]
  rw [Model.get?_insert, if_neg (by decide), Model.get?_insert, if_pos rfl]

theorem plan_entry : ∃ declaration,
    UnionDeclaration.plan entryModel (.kotlin entrySettings) entrySettings entry.id = .ok declaration ∧
    (written "com.example.model" declaration.emit).importPaths = ["aws.smithy.kotlin.runtime.content.BigInteger"] := by
  rw [UnionDeclaration.plan_eq_of_pairwise get?_entry rfl (by decide +kernel) (by decide +kernel)]
  apply map_toOption_eq_some_iff.mp
  decide +kernel

theorem plan_failure : ∃ declaration,
    StructureDeclaration.plan entryModel (.kotlin entrySettings) entrySettings failure.id = .ok declaration ∧
    (written "com.example.model" declaration.emit).importPaths =
      ["aws.smithy.kotlin.runtime.ServiceException", "aws.smithy.kotlin.runtime.time.Instant"] := by
  apply map_toOption_eq_some_iff.mp
  decide +kernel

theorem plan_recorded_entry :
    (∃ declaration,
      UnionDeclaration.plan entryModel (.kotlin entrySettings) entrySettings entry.id = .ok declaration ∧
      (written "com.example.model" declaration.emit).importPaths =
        ["aws.smithy.kotlin.runtime.content.BigInteger"] ∧
      let symbols := MemberSymbol entryModel (.kotlin entrySettings) (entry.qualifying entryModel)
      Recorded "com.example.model" declaration.emit symbols fun symbol =>
        symbols symbol ∧ symbol.rawName ∉ declaration.variantNames) ∧
    ∃ declaration,
      StructureDeclaration.plan entryModel (.kotlin entrySettings) entrySettings failure.id = .ok declaration ∧
      (written "com.example.model" declaration.emit).importPaths =
        ["aws.smithy.kotlin.runtime.ServiceException", "aws.smithy.kotlin.runtime.time.Instant"] ∧
      let symbols := StructureDeclaration.Refers entryModel (.kotlin entrySettings) entrySettings failure
      Recorded "com.example.model" declaration.emit symbols symbols := by
  constructor
  · obtain ⟨declaration, hplan, himports⟩ := plan_entry
    exact ⟨declaration, hplan, himports, (plan_recorded entryModel (.kotlin entrySettings) entrySettings
      entry.id entry get?_entry "com.example.model").1 declaration hplan⟩
  · obtain ⟨declaration, hplan, himports⟩ := plan_failure
    exact ⟨declaration, hplan, himports, (plan_recorded entryModel (.kotlin entrySettings) entrySettings
      failure.id failure get?_failure "com.example.model").2 declaration hplan⟩

end Recorded

end SmithyKotlin
