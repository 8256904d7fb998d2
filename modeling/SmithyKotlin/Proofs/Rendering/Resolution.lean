import SmithyKotlin.Proofs.Model.Prelude
import SmithyKotlin.Proofs.Rendering.ShortTypes

/-!
# When names mean what they were written for

A file is safe to read when each name without a package means the type that it was written for
(`Emission.Resolves`).

* `Emission.EmittedFor.resolves_iff`: that depends on the model alone: the declared class and the types that the
  declaration names must not share a name across packages.
* `Emission.EmittedFor.not_resolves_of_isUnit`: the structure for the absence of a value is never safe, since its
  class is declared under the name of a type of Kotlin.
* `render_namesDecided` says this of every file that is rendered.

Names of other files in the package are not taken into account.
-/

namespace SmithyKotlin

variable {model : Model} {settings : Settings} {shape : Shape} {emission : Emission}

namespace Emission

/-- Every name without a package means the type it was written for. -/
def Resolves (settings : Settings) (emission : Emission) : Prop :=
  ∀ type ∈ emission.shortTypes,
    resolve? settings.modelPackage (emission.imports settings) type.name = some type.path

/-- What a declaration took from the model. -/
structure EmittedFor (model : Model) (settings : Settings) (shape : Shape) (emission : Emission) :
    Prop where
  type : shape.type = .struct ∨ shape.type = .union
  symbol : (SymbolProvider.kotlin settings).shapeSymbol model shape = .ok emission.symbol
  references : ∀ type, type ∈ shortReferences emission.instructions ↔
    type ∈ shape.shortTypes settings model

theorem emittedFor_of_emission (hkeyed : model.WellKeyed) (hget : model.get? shape.id = some shape)
    (h : SourceFile.emission model (SymbolProvider.kotlin settings) settings shape = .ok emission) :
    emission.EmittedFor model settings shape := by
  rw [SourceFile.emission] at h
  split at h
  · rename_i htype
    obtain ⟨declaration, hplan, rfl⟩ := map_eq_ok_iff.mp h
    obtain ⟨htargets, hsymbol⟩ := UnionDeclaration.symbol_of_plan hget htype hplan
    have hcovers := UnionDeclaration.covers_of_plan hkeyed hget htype htargets hplan
    exact ⟨.inr htype, hsymbol, fun _ => UnionDeclaration.mem_shortReferences_emit htype hcovers⟩
  · rename_i htype
    obtain ⟨declaration, hplan, rfl⟩ := map_eq_ok_iff.mp h
    have hplanned := StructureDeclaration.plannedFor_of_plan hget htype hplan
    exact ⟨.inl htype, hplanned.symbol,
      fun _ => StructureDeclaration.mem_shortReferences_emit htype hplanned⟩
  · cases h

theorem nodup_imports (settings : Settings) (emission : Emission) :
    (emission.imports settings).Nodup :=
  Ascending.nodup_keys (SortedMap.ascending _)

namespace EmittedFor

variable (hemitted : emission.EmittedFor model settings shape)

include hemitted

/-- The imports are the types of other packages that are named without their package. -/
theorem mem_imports_iff {path : String} :
    path ∈ emission.imports settings ↔
      ∃ type ∈ shape.shortTypes settings model,
        type.package ≠ settings.modelPackage ∧ path = type.path := by
  rw [imports, SmithyKotlin.mem_imports_iff]
  constructor
  · intro h
    obtain ⟨symbol, hmem, hbuiltin, hpackage, rfl⟩ := h
    have hshort := Symbol.isShort_of_isBuiltin_eq_false hbuiltin
    have hreference := mem_shortReferences_iff.mpr ⟨symbol, hmem, hshort, rfl⟩
    exact ⟨symbol.typeName, (hemitted.references _).mp hreference, hpackage, rfl⟩
  · intro h
    obtain ⟨type, htype, hpackage, rfl⟩ := h
    have hruntime := (Shape.package_of_mem_shortTypes hemitted.type htype).resolve_right hpackage
    obtain ⟨symbol, hmem, hshort, rfl⟩ :=
      mem_shortReferences_iff.mp ((hemitted.references type).mpr htype)
    have hempty : symbol.package.isEmpty = false := (Runtime.of_mem_types hruntime).2.2.1
    have hbuiltin := Symbol.isBuiltin_eq_false_of_isShort hempty hshort
    exact ⟨symbol, hmem, hbuiltin, hpackage, rfl⟩

theorem mem_shortTypes_iff (hunit : shape.isUnit = false) {type : TypeName} :
    type ∈ emission.shortTypes ↔
      type ∈ shape.declaredName settings :: shape.shortTypes settings model := by
  have hname := Shape.typeName_shapeSymbol hemitted.type hemitted.symbol
  rw [hunit, if_neg Bool.false_ne_true] at hname
  rw [shortTypes, hname, List.mem_cons, List.mem_cons, hemitted.references]

/-- The names of a declaration under its own name mean their types exactly when they are
unambiguous. -/
theorem resolves_iff_unambiguous (hunit : shape.isUnit = false) :
    emission.Resolves settings ↔ Unambiguous emission.shortTypes := by
  refine resolve?_eq_path_iff (nodup_imports settings emission) ?_ ?_
  · intro path
    simp only [hemitted.mem_imports_iff, hemitted.mem_shortTypes_iff hunit, List.mem_cons]
    constructor
    · intro h
      obtain ⟨type, hmem, hpath⟩ := h
      exact ⟨type, .inr hmem, hpath⟩
    · intro h
      rcases h with ⟨type, rfl | hmem, hpackage, hpath⟩
      · exact absurd rfl hpackage
      · exact ⟨type, hmem, hpackage, hpath⟩
  · intro type hmem hpackage
    rcases List.mem_cons.mp ((hemitted.mem_shortTypes_iff hunit).mp hmem) with rfl | hmem
    · exact absurd rfl hpackage
    · have hruntime := (Shape.package_of_mem_shortTypes hemitted.type hmem).resolve_right hpackage
      exact (Runtime.of_mem_types hruntime).1

/-- The class for the absence of a value is declared where its name means something else. -/
theorem not_resolves_of_isUnit (hunit : shape.isUnit = true) : ¬ emission.Resolves settings := by
  intro hresolves
  have hname := Shape.typeName_shapeSymbol hemitted.type hemitted.symbol
  rw [hunit, if_pos rfl] at hname
  have hdeclared := hresolves emission.symbol.typeName List.mem_cons_self
  rw [hname] at hdeclared
  rcases resolve?_cases hdeclared with hpath | himport
  · rw [TypeName.path, String.append_left_inj, String.append_left_inj] at hpath
    exact settings.modelPackage_ne (by decide +kernel) hpath.symm
  · obtain ⟨type, hmem, hpackage, hpath⟩ := hemitted.mem_imports_iff.mp himport
    have hruntime := (Shape.package_of_mem_shortTypes hemitted.type hmem).resolve_right hpackage
    have hother : ∀ type ∈ Runtime.types, (⟨"kotlin", "Unit"⟩ : TypeName).path ≠ type.path := by
      decide +kernel
    exact hother type hruntime hpath

/-- Whether the names mean their types is seen from the model. -/
theorem resolves_iff :
    emission.Resolves settings ↔
      shape.isUnit = false ∧ ¬ shape.HidesRuntimeType settings model := by
  cases hunit : shape.isUnit with
  | true =>
    constructor
    · intro hresolves
      exact absurd hresolves (hemitted.not_resolves_of_isUnit hunit)
    · intro h
      obtain ⟨hnot, _⟩ := h
      cases hnot
  | false =>
    rw [hemitted.resolves_iff_unambiguous hunit, and_iff_right rfl,
      ← Shape.unambiguous_iff hemitted.type]
    exact unambiguous_congr fun _ => hemitted.mem_shortTypes_iff hunit

end EmittedFor

end Emission

/-! ## Structures of named types -/

/-- A structure whose members have named types can be planned. -/
theorem StructureDeclaration.exists_plan (hget : model.get? shape.id = some shape)
    (htype : shape.type = .struct)
    (hmembers : ∀ member ∈ shape.members,
      ((model.get? member.target).bind KotlinType.scalar?).isSome = true) :
    ∃ declaration, plan model (SymbolProvider.kotlin settings) settings shape.id =
      .ok declaration := by
  refine (exists_plan_iff hget htype).mpr ⟨fun member hmem => ?_, ?_⟩
  · obtain ⟨type, htype⟩ := Option.isSome_iff_exists.mp (hmembers member hmem)
    obtain ⟨target, htarget, hscalar⟩ := Option.bind_eq_some_iff.mp htype
    exact ⟨⟨target, htarget⟩, Member.exists_symbol htarget hscalar⟩
  · show ∃ symbol, SymbolProvider.kotlinShape settings model shape = .ok symbol
    rw [SymbolProvider.kotlinShape,
      KotlinType.ofShape_of_scalar? (Shape.scalar?_of_declares (.inl htype))]
    exact ⟨_, rfl⟩

theorem SourceFile.exists_emission (hget : model.get? shape.id = some shape)
    (htype : shape.type = .struct)
    (hmembers : ∀ member ∈ shape.members,
      ((model.get? member.target).bind KotlinType.scalar?).isSome = true) :
    ∃ emission, SourceFile.emission model (SymbolProvider.kotlin settings) settings shape =
      .ok emission := by
  obtain ⟨declaration, hplan⟩ := StructureDeclaration.exists_plan hget htype hmembers
  rw [SourceFile.emission, htype]
  exact ⟨_, congrArg (Except.map _) hplan⟩

/-! ## Files -/

/-- What is known of the names in a file.  Each symbol is written with its package, or its type is one of
those whose names have to mean something.  They all mean their types just when no generated type takes the
name of a runtime type; but for the structure that stands for no value this is to say that no two of the
types share a name across packages. -/
def NamesDecided (model : Model) (settings : Settings) (shape : Shape) (file : SourceFile) : Prop :=
  ∃ emission,
    SourceFile.emission model (SymbolProvider.kotlin settings) settings shape = .ok emission ∧
      emission.file settings shape.id = file ∧
      (∀ symbol ∈ references emission.instructions,
        (symbol.typeName ∈ emission.shortTypes ∧
            symbol.referenceText = symbol.marked symbol.name) ∨
          symbol.referenceText = symbol.marked (symbol.package ++ "." ++ symbol.name)) ∧
      (emission.Resolves settings ↔
        shape.isUnit = false ∧ ¬ shape.HidesRuntimeType settings model) ∧
      (shape.isUnit = false → (emission.Resolves settings ↔ Unambiguous emission.shortTypes))

/-- Of every file that is rendered it can be told from the model whether its names mean their types. -/
theorem render_namesDecided (model : Model) (settings : Settings) (shape : Shape)
    (file : SourceFile) (hkeyed : model.WellKeyed) (hget : model.get? shape.id = some shape)
    (hrender : SourceFile.render model (SymbolProvider.kotlin settings) settings shape = .ok file) :
    NamesDecided model settings shape file := by
  obtain ⟨emission, hemission, hfile⟩ := SourceFile.render_eq_ok_iff.mp hrender
  have hemitted := Emission.emittedFor_of_emission hkeyed hget hemission
  exact ⟨emission, hemission, hfile, fun _ => Emission.referenceText_cases,
    hemitted.resolves_iff, hemitted.resolves_iff_unambiguous⟩

/-- A time and a generated type that is called what times are called in the runtime. -/
def event : Shape :=
  { id := ⟨"com.example#Event"⟩, type := .struct
    members := [.of ⟨"com.example#Event"⟩ "at" ⟨"smithy.api#Timestamp"⟩,
      .of ⟨"com.example#Event"⟩ "start" ⟨"com.example#Instant"⟩] }

/-- A time and an event. -/
def reading : Shape :=
  { id := ⟨"com.example#Reading"⟩, type := .struct
    members := [.of ⟨"com.example#Reading"⟩ "at" ⟨"smithy.api#Timestamp"⟩,
      .of ⟨"com.example#Reading"⟩ "event" event.id] }

/-- The prelude with the two structures and what they refer to. -/
def eventModel : Model :=
  ((Prelude.model.insert { id := ⟨"com.example#Instant"⟩, type := .struct }).insert event).insert
    reading

def eventSettings : Settings := { packageName := "com.example", runtimeVersion := "1.0.0" }

theorem wellKeyed_eventModel : eventModel.WellKeyed :=
  ((Prelude.wellKeyed_model.insert _).insert _).insert _

theorem get?_reading : eventModel.get? reading.id = some reading := by
  rw [eventModel, Model.get?_insert, if_pos rfl]

theorem get?_event : eventModel.get? event.id = some event := by
  rw [eventModel, Model.get?_insert, if_neg (by decide), Model.get?_insert, if_pos rfl]

theorem get?_instant : eventModel.get? ⟨"com.example#Instant"⟩ =
    some { id := ⟨"com.example#Instant"⟩, type := .struct } := by
  rw [eventModel, Model.get?_insert, if_neg (by decide), Model.get?_insert, if_neg (by decide),
    Model.get?_insert, if_pos (by decide)]

theorem get?_timestamp : eventModel.get? ⟨"smithy.api#Timestamp"⟩ =
    some { id := ⟨"smithy.api#Timestamp"⟩, type := .timestamp } := by
  rw [eventModel, Model.get?_insert, if_neg (by decide), Model.get?_insert, if_neg (by decide),
    Model.get?_insert, if_neg (by decide), Prelude.get?_model_iff]
  refine ⟨List.mem_append_left _ (List.mem_append_left _ ?_), rfl⟩
  exact List.mem_map.mpr ⟨("Timestamp", .timestamp), by decide, rfl⟩

theorem shortName?_timestamp (container : ShapeId) (name : String) :
    (Member.of container name ⟨"smithy.api#Timestamp"⟩).shortName? eventSettings eventModel =
      some ⟨"aws.smithy.kotlin.runtime.time", "Instant"⟩ := by
  show ((eventModel.get? ⟨"smithy.api#Timestamp"⟩).bind KotlinType.scalar?).bind _ = _
  rw [get?_timestamp]
  rfl

theorem shortName?_event (container : ShapeId) (name : String) :
    (Member.of container name event.id).shortName? eventSettings eventModel =
      some ⟨"com.example.model", "Event"⟩ := by
  show ((eventModel.get? event.id).bind KotlinType.scalar?).bind _ = _
  rw [get?_event]
  decide +kernel

theorem shortName?_instant (container : ShapeId) (name : String) :
    (Member.of container name ⟨"com.example#Instant"⟩).shortName? eventSettings eventModel =
      some ⟨"com.example.model", "Instant"⟩ := by
  show ((eventModel.get? ⟨"com.example#Instant"⟩).bind KotlinType.scalar?).bind _ = _
  rw [get?_instant]
  decide +kernel

theorem shortTypes_reading : reading.shortTypes eventSettings eventModel =
    [⟨"aws.smithy.kotlin.runtime.time", "Instant"⟩, ⟨"com.example.model", "Event"⟩] := by
  have hat := shortName?_timestamp reading.id "at"
  have hevent := shortName?_event reading.id "event"
  show [] ++ List.filterMap (Member.shortName? eventSettings eventModel)
    [.of reading.id "at" ⟨"smithy.api#Timestamp"⟩, .of reading.id "event" event.id] = _
  rw [List.filterMap_cons_some hat, List.filterMap_cons_some hevent]
  rfl

theorem shortTypes_event : event.shortTypes eventSettings eventModel =
    [⟨"aws.smithy.kotlin.runtime.time", "Instant"⟩, ⟨"com.example.model", "Instant"⟩] := by
  have hat := shortName?_timestamp event.id "at"
  have hstart := shortName?_instant event.id "start"
  show [] ++ List.filterMap (Member.shortName? eventSettings eventModel)
    [.of event.id "at" ⟨"smithy.api#Timestamp"⟩, .of event.id "start" ⟨"com.example#Instant"⟩] = _
  rw [List.filterMap_cons_some hat, List.filterMap_cons_some hstart]
  rfl

theorem render_namesDecided_reading :
    ∃ file, SourceFile.render eventModel (SymbolProvider.kotlin eventSettings) eventSettings
        reading = .ok file ∧
      NamesDecided eventModel eventSettings reading file ∧
      ¬ reading.HidesRuntimeType eventSettings eventModel := by
  have hmembers : ∀ member ∈ reading.members,
      ((eventModel.get? member.target).bind KotlinType.scalar?).isSome = true := by
    simp only [reading, List.forall_mem_cons, Member.of, get?_timestamp, get?_event]
    exact ⟨rfl, rfl, fun _ hmem => nomatch hmem⟩
  obtain ⟨emission, hemission⟩ := SourceFile.exists_emission get?_reading rfl hmembers
  have hrender := SourceFile.render_eq_ok_iff.mpr ⟨emission, hemission, rfl⟩
  refine ⟨_, hrender, render_namesDecided eventModel eventSettings reading _
    wellKeyed_eventModel get?_reading hrender, ?_⟩
  have hdeclared : reading.declaredName eventSettings = ⟨"com.example.model", "Reading"⟩ := by
    decide +kernel
  rw [Shape.HidesRuntimeType, shortTypes_reading, hdeclared]
  decide +kernel

/-- Both types with the name `Instant` stand in one file under that name. -/
theorem not_resolves_event :
    eventModel.WellKeyed ∧ eventModel.get? event.id = some event ∧
      eventSettings.check = .ok () ∧
      ∃ emission, SourceFile.emission eventModel (SymbolProvider.kotlin eventSettings)
          eventSettings event = .ok emission ∧
        SourceFile.render eventModel (SymbolProvider.kotlin eventSettings) eventSettings event =
          .ok (emission.file eventSettings event.id) ∧
        ⟨"com.example.model", "Instant"⟩ ∈ emission.shortTypes ∧
        ⟨"aws.smithy.kotlin.runtime.time", "Instant"⟩ ∈ emission.shortTypes ∧
        ¬ emission.Resolves eventSettings := by
  have hmembers : ∀ member ∈ event.members,
      ((eventModel.get? member.target).bind KotlinType.scalar?).isSome = true := by
    simp only [event, List.forall_mem_cons, Member.of, get?_timestamp, get?_instant]
    exact ⟨rfl, rfl, fun _ hmem => nomatch hmem⟩
  obtain ⟨emission, hemission⟩ := SourceFile.exists_emission get?_event rfl hmembers
  have hemitted := Emission.emittedFor_of_emission wellKeyed_eventModel get?_event hemission
  have hmem (type : TypeName) : type ∈ emission.shortTypes ↔
      type ∈ event.declaredName eventSettings :: event.shortTypes eventSettings eventModel :=
    hemitted.mem_shortTypes_iff rfl
  have hgenerated : ⟨"com.example.model", "Instant"⟩ ∈ emission.shortTypes := by
    rw [hmem, shortTypes_event]
    exact List.mem_cons_of_mem _ (List.mem_cons_of_mem _ List.mem_cons_self)
  have hruntime : ⟨"aws.smithy.kotlin.runtime.time", "Instant"⟩ ∈ emission.shortTypes := by
    rw [hmem, shortTypes_event]
    exact List.mem_cons_of_mem _ List.mem_cons_self
  have hrender := SourceFile.render_eq_ok_iff.mpr ⟨emission, hemission, rfl⟩
  refine ⟨wellKeyed_eventModel, get?_event, by decide +kernel, emission, hemission, hrender,
    hgenerated, hruntime, fun hresolves => ?_⟩
  -- the two types would have one package
  have hpackage := (hemitted.resolves_iff_unambiguous rfl).mp hresolves _ hgenerated _ hruntime rfl
  exact absurd hpackage (by decide +kernel)

end SmithyKotlin
