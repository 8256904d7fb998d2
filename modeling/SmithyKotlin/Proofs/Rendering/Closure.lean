import SmithyKotlin.Proofs.Document.ParsedModel
import SmithyKotlin.Proofs.Rendering.Location
import SmithyKotlin.Proofs.Rendering.Partition
import SmithyKotlin.Proofs.Rendering.ShortTypes
import SmithyKotlin.Proofs.Symbol.Mentions

/-!
# Files for all types that are named

Where a whole model is rendered and nothing fails, every generated type that a file names has a file of its own.

* `SourceFile.symbols_of_emission`: the types of a file are those of the members that it writes
  (`Shape.writtenMembers`), at any depth of lists and maps.
* `Rendering.files_of_ofModel`: every target has a file.
* `Rendering.hasFileOf_of_value`: so a generated type among them has one, at the path that its name tells.
* `Rendering.ofModel_closed` says this of the whole rendering (`NamesFiles`).

No service narrows the model down here; with one, types of other namespaces have no file.
-/

namespace SmithyKotlin

variable {model : Model} {settings : Settings}

/-! ## Types of members -/

/-- A member with a symbol has a target with a type, and the symbol is that of the type. -/
theorem Member.exists_type {member : Member} {symbol : Symbol}
    (h : (SymbolProvider.kotlin settings).memberSymbol model member = .ok symbol) :
    ∃ target type, model.get? member.target = some target ∧
      KotlinType.ofShape model target = .ok type := by
  obtain ⟨target, type, htarget, htype, _⟩ := SymbolProvider.memberSymbol_eq_ok_iff.mp h
  exact ⟨target, type, htarget, htype⟩

/-- The members that the declaration of a structure or union has. -/
def Shape.writtenMembers (model : Model) (shape : Shape) : List Member :=
  if shape.type = .union then shape.qualifying model else shape.members

/-- The class of a structure or union has its name. -/
theorem Shape.IsGenerated.name_shapeSymbol {shape : Shape} (hgenerated : shape.IsGenerated)
    {symbol : Symbol} (h : (SymbolProvider.kotlin settings).shapeSymbol model shape = .ok symbol) :
    symbol.name = Naming.pascalCase shape.id.name := by
  rw [Shape.shapeSymbol_eq hgenerated.1 h, hgenerated.2]
  rfl

namespace SourceFile

/-- A file has the symbol of its shape and a symbol for each of the written members. -/
theorem symbols_of_emission {shape : Shape} {emission : Emission} (hkeyed : model.WellKeyed)
    (hget : model.get? shape.id = some shape)
    (h : SourceFile.emission model (SymbolProvider.kotlin settings) settings shape = .ok emission) :
    (SymbolProvider.kotlin settings).shapeSymbol model shape = .ok emission.symbol ∧
      ∀ member ∈ shape.writtenMembers model, ∃ symbol,
        (SymbolProvider.kotlin settings).memberSymbol model member = .ok symbol := by
  rw [SourceFile.emission] at h
  split at h
  · rename_i htype
    obtain ⟨declaration, hplan, rfl⟩ := map_eq_ok_iff.mp h
    obtain ⟨htargets, hsymbol⟩ := UnionDeclaration.symbol_of_plan hget htype hplan
    have hcovers := UnionDeclaration.covers_of_plan hkeyed hget htype htargets hplan
    obtain ⟨members, hperm, _, hvariants⟩ := hcovers.members
    refine ⟨hsymbol, fun member hmem => ?_⟩
    rw [Shape.writtenMembers, if_pos htype, ← hperm.mem_iff] at hmem
    obtain ⟨variant, hvariant⟩ := exists_of_forall₂ hvariants member hmem
    exact ⟨variant.symbol, hvariant.symbol⟩
  · rename_i htype
    obtain ⟨declaration, hplan, rfl⟩ := map_eq_ok_iff.mp h
    have hplanned := StructureDeclaration.plannedFor_of_plan hget htype hplan
    have hunion : shape.type ≠ .union := by
      rw [htype]
      exact fun h => by cases h
    refine ⟨hplanned.symbol, fun member hmem => ?_⟩
    rw [Shape.writtenMembers, if_neg hunion] at hmem
    obtain ⟨property, hsymbol⟩ := exists_of_forall₂ hplanned.properties member hmem
    exact ⟨property.symbol, hsymbol⟩
  · cases h

/-- The file of a structure or union stands under the name of its class. -/
theorem path_of_emission {shape : Shape} {emission : Emission} (hgenerated : shape.IsGenerated)
    (h : (SymbolProvider.kotlin settings).shapeSymbol model shape = .ok emission.symbol) :
    (emission.file settings shape.id).path =
      pathOf settings.modelPackage (Naming.pascalCase shape.id.name) := by
  show pathOf settings.modelPackage emission.symbol.name = _
  rw [hgenerated.name_shapeSymbol h]

/-- The path of a type that is named by letters and digits ends with its name. -/
theorem fileName?_pathOf (package : String) {name : String} (hname : Naming.IsIdentifier name) :
    Path.fileName? (pathOf package (Naming.pascalCase name)) =
      some (Naming.pascalCase name ++ ".kt") := by
  have hslash : '/' ∉ (Naming.pascalCase name).toList := by
    rw [Naming.pascalCase, String.toList_ofList]
    exact fun hmem => absurd (hname.isAlphanum_of_mem_pascal hmem) (by decide)
  exact Path.fileName?_join (no_slash_fileName_iff.mpr hslash) (fileName_ne (by decide))
    (fileName_ne (by decide)) (fileName_ne (by decide))

end SourceFile

namespace Rendering

/-- The file of a generated type: it was rendered from the shape, its path ends with the name of the class,
and no other file has that path. -/
def HasFileOf (rendering : Rendering) (model : Model) (settings : Settings) (shape : Shape) : Prop :=
  ∃ file, rendering.files.get? shape.id.text = some file ∧
    SourceFile.render model (SymbolProvider.kotlin settings) settings shape = .ok file ∧
    file.shape = shape.id ∧
    file.path = SourceFile.pathOf settings.modelPackage (Naming.pascalCase shape.id.name) ∧
    Path.fileName? file.path = some (Naming.pascalCase shape.id.name ++ ".kt") ∧
    ∀ key other, rendering.files.get? key = some other → Path.same other.path file.path = true →
      key = shape.id.text

theorem mem_targets_iff {shape : Shape} (hkeyed : model.WellKeyed) :
    shape ∈ targets model settings ↔
      model.get? shape.id = some shape ∧ isTarget settings shape = true := by
  rw [targets, List.mem_filter, hkeyed.mem_values_iff]

/-- Targets become generated types. -/
theorem isGenerated_of_isTarget {shape : Shape} (h : isTarget settings shape = true) :
    shape.IsGenerated := by
  rw [isTarget, Bool.and_eq_true, Bool.and_eq_true, Bool.and_eq_true, Bool.or_eq_true,
    decide_eq_true_eq, decide_eq_true_eq, Bool.not_eq_true'] at h
  obtain ⟨⟨⟨hdeclares, _⟩, hunit⟩, _⟩ := h
  exact ⟨hdeclares.symm, by rw [Shape.isUnit, hunit, Bool.and_false]⟩

/-- Each file was rendered from a target. -/
theorem exists_target_of_file {rendering : Rendering} (hkeyed : model.WellKeyed)
    (h : ofModel model settings = .ok rendering) {key : String} {file : SourceFile}
    (hfile : rendering.files.get? key = some file) :
    ∃ shape ∈ targets model settings, shape.id.text = key ∧
      SourceFile.render model (SymbolProvider.kotlin settings) settings shape = .ok file := by
  rw [of_renderAll h] at hfile
  obtain ⟨shape, hkey, hkeeper⟩ := (files_get?_ofOutcomes (nodup_ids_targets hkeyed settings)).mp hfile
  exact ⟨shape, hkeeper.mem, hkey, hkeeper.rendered⟩

/-- The file that is rendered from a target has the name of its class. -/
theorem path_of_render (hkeyed : model.WellKeyed) {shape : Shape}
    (hmem : shape ∈ targets model settings) {file : SourceFile}
    (h : SourceFile.render model (SymbolProvider.kotlin settings) settings shape = .ok file) :
    file.path = SourceFile.pathOf settings.modelPackage (Naming.pascalCase shape.id.name) := by
  obtain ⟨hget, htarget⟩ := (mem_targets_iff hkeyed).mp hmem
  obtain ⟨emission, hemission, rfl⟩ := SourceFile.render_eq_ok_iff.mp h
  exact SourceFile.path_of_emission (isGenerated_of_isTarget htarget)
    (SourceFile.symbols_of_emission hkeyed hget hemission).1

/-- Without failures to skip a rendering holds the file of every target and no others. -/
theorem files_of_ofModel {rendering : Rendering} (hkeyed : model.WellKeyed)
    (hstop : settings.continueOnError = false) (h : ofModel model settings = .ok rendering) :
    (∀ shape ∈ targets model settings, ∃ file, rendering.files.get? shape.id.text = some file) ∧
    (∀ key file, rendering.files.get? key = some file → ∃ shape ∈ targets model settings,
      shape.id.text = key ∧
        SourceFile.render model (SymbolProvider.kotlin settings) settings shape = .ok file) ∧
    ∀ a b fileA fileB, rendering.files.get? a = some fileA → rendering.files.get? b = some fileB →
      Path.same fileA.path fileB.path = true → a = b := by
  have hrendered := fun key file => @exists_target_of_file _ _ _ hkeyed h key file
  rw [ofModel, renderAll, hstop] at h
  obtain ⟨hmerged, hnone⟩ := merge_false_eq_ok_iff.mp h
  have hpartitions : rendering.Partitions (targets model settings)
      (SourceFile.render model (SymbolProvider.kotlin settings) settings) := by
    rw [hmerged]
    exact partitions_ofOutcomes (nodup_ids_targets hkeyed settings)
  refine ⟨fun shape hmem => ?_, hrendered, hpartitions.paths⟩
  rcases (hpartitions.covers shape.id.text).mpr ⟨shape, hmem, rfl⟩ with hkey | hkey
  · exact SortedMap.mem_keys_iff.mp hkey
  · rw [SortedMap.keys, hnone] at hkey
    cases hkey

/-- Without a service every structure and union outside the prelude that stands for a value is a target. -/
theorem isTarget_of_value {shape : Shape} (hservice : settings.service = none)
    (htype : shape.type = .struct ∨ shape.type = .union)
    (hunit : shape.traits.contains Trait.unitType = false)
    (hscope : shape.id.namespace? ≠ some Prelude.scope) : isTarget settings shape = true := by
  have hdeclares : (shape.type = .union || shape.type = .struct) = true := by
    rcases htype with htype | htype <;> simp [htype]
  simp [isTarget, hdeclares, hscope, hunit, hservice]

/-- A target has a file, and the path of the file is its own. -/
theorem hasFileOf_of_mem_targets {rendering : Rendering} (hkeyed : model.WellKeyed)
    (hstop : settings.continueOnError = false) (hrender : ofModel model settings = .ok rendering)
    {shape : Shape} (hmem : shape ∈ targets model settings)
    (hname : Naming.IsIdentifier shape.id.name) : rendering.HasFileOf model settings shape := by
  obtain ⟨hfiles, hrendered, hpaths⟩ := files_of_ofModel hkeyed hstop hrender
  obtain ⟨file, hfile⟩ := hfiles shape hmem
  obtain ⟨found, hfound, hid, hok⟩ := hrendered _ file hfile
  obtain rfl : found = shape :=
    List.inj_on_of_nodup_map (nodup_ids_targets hkeyed settings) hfound hmem (ShapeId.text_inj.mp hid)
  have hpath := path_of_render hkeyed hmem hok
  obtain ⟨emission, hemission, rfl⟩ := SourceFile.render_eq_ok_iff.mp hok
  refine ⟨_, hfile, hok, rfl, hpath, ?_, fun key other hother hsame =>
    hpaths key _ other _ hother hfile hsame⟩
  rw [hpath]
  exact SourceFile.fileName?_pathOf settings.modelPackage hname

end Rendering

/-- What the shapes of a Smithy model keep to: structures and unions are named by identifiers, only structures
stand for the absence of a value, and the namespace of the prelude has no structures and unions but its own. -/
structure Model.FollowsConventions (model : Model) : Prop where
  identifiers : ∀ shape ∈ model.shapes.values, shape.type = .struct ∨ shape.type = .union →
    Naming.IsIdentifier shape.id.name
  units : ∀ shape ∈ model.shapes.values,
    shape.traits.contains Trait.unitType = true → shape.type = .struct
  scope : ∀ shape ∈ model.shapes.values, shape.type = .struct ∨ shape.type = .union →
    shape.id.namespace? = some Prelude.scope → shape.id ∈ Prelude.ids

instance (model : Model) : Decidable model.FollowsConventions :=
  decidable_of_iff
    ((∀ shape ∈ model.shapes.values, shape.type = .struct ∨ shape.type = .union →
        Naming.IsIdentifier shape.id.name) ∧
      (∀ shape ∈ model.shapes.values,
        shape.traits.contains Trait.unitType = true → shape.type = .struct) ∧
      ∀ shape ∈ model.shapes.values, shape.type = .struct ∨ shape.type = .union →
        shape.id.namespace? = some Prelude.scope → shape.id ∈ Prelude.ids)
    ⟨fun ⟨identifiers, units, scope⟩ => ⟨identifiers, units, scope⟩,
      fun h => ⟨h.identifiers, h.units, h.scope⟩⟩

namespace Rendering

/-- Without a service every structure and union that stands for a value has a file. -/
theorem hasFileOf_of_value {document : Document} {rendering : Rendering}
    (hmodel : document.toModel = .ok model) (hconventions : model.FollowsConventions)
    (hservice : settings.service = none) (hstop : settings.continueOnError = false)
    (hrender : ofModel model settings = .ok rendering) {shape : Shape}
    (hget : model.get? shape.id = some shape) (hdeclares : shape.type = .struct ∨ shape.type = .union)
    (hunit : shape.traits.contains Trait.unitType = false) :
    rendering.HasFileOf model settings shape := by
  have hkeyed := Document.wellKeyed_of_toModel hmodel
  have hvalue := hkeyed.mem_values_iff.mpr hget
  have hscope : shape.id.namespace? ≠ some Prelude.scope := by
    intro hscope
    have hprelude := hconventions.scope shape hvalue hdeclares hscope
    rw [Document.unitType_of_mem_prelude hmodel hget hprelude hdeclares] at hunit
    cases hunit
  have htarget := isTarget_of_value hservice hdeclares hunit hscope
  exact hasFileOf_of_mem_targets hkeyed hstop hrender ((mem_targets_iff hkeyed).mpr ⟨hget, htarget⟩)
    (hconventions.identifiers shape hvalue hdeclares)

/-- The type of a member names only types with files: each structure and union for a value that its target
holds has a file, and every name of a generated type in the type comes from one of these. -/
def NamesFiles (rendering : Rendering) (model : Model) (settings : Settings) (member : Member) : Prop :=
  ∃ target type, model.get? member.target = some target ∧
    KotlinType.ofShape model target = .ok type ∧
    (∀ inner, model.Holds target inner → inner.type = .struct ∨ inner.type = .union →
      inner.traits.contains Trait.unitType = false → rendering.HasFileOf model settings inner) ∧
    ∀ name ∈ type.generatedNames, ∃ inner, model.Holds target inner ∧
      (inner.type = .struct ∨ inner.type = .union) ∧
      inner.traits.contains Trait.unitType = false ∧ name = Naming.pascalCase inner.id.name

/-- Where no failure is skipped and no service restricts the targets, a rendering is closed: every file
belongs to a shape of the model, and the written members of the shape name only types with files. -/
theorem ofModel_closed (document : Document) (model : Model) (settings : Settings)
    (rendering : Rendering) (hmodel : document.toModel = .ok model)
    (hconventions : model.FollowsConventions) (hservice : settings.service = none)
    (hstop : settings.continueOnError = false) (hrender : ofModel model settings = .ok rendering)
    (key : String) (file : SourceFile) (hfile : rendering.files.get? key = some file) :
    ∃ shape, shape.id.text = key ∧ model.get? shape.id = some shape ∧
      SourceFile.render model (SymbolProvider.kotlin settings) settings shape = .ok file ∧
      ∀ member ∈ shape.writtenMembers model, rendering.NamesFiles model settings member := by
  have hkeyed := Document.wellKeyed_of_toModel hmodel
  obtain ⟨_, hrendered, _⟩ := files_of_ofModel hkeyed hstop hrender
  obtain ⟨shape, hmem, hkey, hok⟩ := hrendered key file hfile
  obtain ⟨emission, hemission, rfl⟩ := SourceFile.render_eq_ok_iff.mp hok
  have hshape := ((mem_targets_iff hkeyed).mp hmem).1
  refine ⟨shape, hkey, hshape, hok, fun member hmember => ?_⟩
  obtain ⟨symbol, hsymbol⟩ :=
    (SourceFile.symbols_of_emission hkeyed hshape hemission).2 member hmember
  obtain ⟨target, type, htarget, htype⟩ := Member.exists_type hsymbol
  have hget (inner) (hholds : model.Holds target inner) : model.get? inner.id = some inner := by
    obtain ⟨id, hinner⟩ := hholds.exists_get? ⟨_, htarget⟩
    rw [hkeyed id inner hinner]
    exact hinner
  refine ⟨target, type, htarget, htype, fun inner hholds hdeclares hunit => ?_, fun name hname => ?_⟩
  · exact hasFileOf_of_value hmodel hconventions hservice hstop hrender (hget inner hholds)
      hdeclares hunit
  · obtain ⟨inner, hholds, ⟨hdeclares, hunit⟩, rfl⟩ := KotlinType.holds_of_ofShape htype hname
    refine ⟨inner, hholds, hdeclares, Bool.eq_false_iff.mpr fun htrait => ?_, rfl⟩
    have hstruct :=
      hconventions.units inner (hkeyed.mem_values_iff.mpr (hget inner hholds)) htrait
    rw [Shape.isUnit, hstruct, htrait] at hunit
    cases hunit

/-- A tree with leaves on its branches, each of which may be a tree again. -/
def tree : Document where
  version := "2.0"
  shapes := ⟨[("com.a#Tree", ⟨.group .struct ⟨[("branches", ⟨"com.a#Branches", {}⟩)], by decide⟩, {}⟩),
    ("com.a#Branches", ⟨.map ⟨"smithy.api#String", {}⟩ ⟨"com.a#Leaves", {}⟩, {}⟩),
    ("com.a#Leaves", ⟨.list ⟨"com.a#Leaf", {}⟩, {}⟩),
    ("com.a#Leaf", ⟨.group .struct ⟨[("tree", ⟨"com.a#Tree", {}⟩), ("bare", ⟨"smithy.api#Unit", {}⟩)],
      by decide⟩, {}⟩)], by decide⟩
  metadata := {}

def treeSettings : Settings := { packageName := "com.example", runtimeVersion := "1.0.0" }

/-- The leaf stands in the values of a map of lists, and has a file. -/
theorem ofModel_closed_tree :
    ∃ model rendering file, tree.toModel = .ok model ∧ model.FollowsConventions ∧
      treeSettings.service = none ∧ treeSettings.continueOnError = false ∧
      ofModel model treeSettings = .ok rendering ∧
      rendering.files.get? "com.a#Tree" = some file ∧
      ∃ leaf, Naming.pascalCase leaf.id.name = "Leaf" ∧
        rendering.HasFileOf model treeSettings leaf := by
  have hseen : (tree.toModel.toOption.map fun model => (decide model.FollowsConventions,
      (ofModel model treeSettings).toOption.map (·.files.keys),
      (model.get? ⟨"com.a#Tree"⟩).map fun shape => (shape.writtenMembers model).map fun member =>
        ((model.get? member.target).bind fun target =>
          (KotlinType.ofShape model target).toOption).map KotlinType.generatedNames)) =
      some (true, some ["com.a#Leaf", "com.a#Tree"], some [some ["Leaf"]]) := by
    decide +kernel
  obtain ⟨model, hmodel, hseen⟩ := map_toOption_eq_some_iff.mp hseen
  rw [Prod.mk.injEq, Prod.mk.injEq, decide_eq_true_eq] at hseen
  obtain ⟨hconventions, hkeys, hnames⟩ := hseen
  obtain ⟨rendering, hrender, hkeys⟩ := map_toOption_eq_some_iff.mp hkeys
  obtain ⟨file, hfile⟩ := SortedMap.mem_keys_iff.mp
    (hkeys ▸ (by decide) : "com.a#Tree" ∈ rendering.files.keys)
  obtain ⟨shape, hkey, hget, _, hclosed⟩ := ofModel_closed tree model treeSettings rendering
    hmodel hconventions rfl rfl hrender "com.a#Tree" file hfile
  rw [show shape.id = ⟨"com.a#Tree"⟩ from ShapeId.text_inj.mp hkey] at hget
  rw [hget, Option.map_some, Option.some.injEq] at hnames
  obtain ⟨member, hmembers, hnames⟩ := List.map_eq_singleton_iff.mp hnames
  obtain ⟨target, type, htarget, htype, hfiles, hnamed⟩ :=
    hclosed member (hmembers ▸ List.mem_singleton_self _)
  have hleaf : type.generatedNames = ["Leaf"] := by
    simpa [htarget, htype, Except.toOption] using hnames
  obtain ⟨leaf, hholds, hdeclares, hunit, hname⟩ := hnamed "Leaf" (hleaf ▸ List.mem_singleton_self _)
  exact ⟨model, rendering, file, hmodel, hconventions, rfl, rfl, hrender, hfile, leaf, hname.symm,
    hfiles leaf hholds hdeclares hunit⟩

end Rendering

end SmithyKotlin
