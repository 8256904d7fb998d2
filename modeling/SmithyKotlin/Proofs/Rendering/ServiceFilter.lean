import SmithyKotlin.CommandLine.Basic
import SmithyKotlin.Proofs.Model.Address
import SmithyKotlin.Proofs.Outcome

/-!
# Rendering for a service

Settings that name a service ask for the shapes of its namespace.

* `Rendering.targets_of_namespace`: with a namespace these shapes get a file, and no others.
* `Rendering.targets_of_relative`: a service without a namespace leaves nothing out, as if no service were named.
* `CommandLine.service_of_resolveSettings`: the service of an option must have a namespace; one in a file is taken
  as it is.
* `Rendering.serviceFilter_of_service` puts these together for the settings of a run.
-/

namespace SmithyKotlin

variable {settings : Settings} {service : ShapeId} {scope : String}

namespace Rendering

/-- The same settings for all services. -/
def unfiltered (settings : Settings) : Settings := { settings with service := none }

/-- The shape is one of the service's namespace. -/
def InNamespaceOf (service : ShapeId) (shape : Shape) : Prop :=
  ∃ scope, service.namespace? = some scope ∧ shape.id.namespace? = some scope

theorem isTarget_of_namespace (hservice : settings.service = some service)
    (hscope : service.namespace? = some scope) (shape : Shape) :
    isTarget settings shape =
      (decide (shape.id.namespace? = some scope) && isTarget (unfiltered settings) shape) := by
  rw [isTarget, isTarget, hservice, Option.bind_some, hscope, Bool.and_comm, unfiltered]
  simp only [Option.all_some, Option.bind_none, Option.all_none, Bool.and_true]

theorem isTarget_of_relative (hservice : settings.service = some service)
    (hscope : service.namespace? = none) (shape : Shape) :
    isTarget settings shape = isTarget (unfiltered settings) shape := by
  rw [isTarget, isTarget, hservice, Option.bind_some, hscope, unfiltered, Option.bind_none]

theorem targets_of_namespace (hservice : settings.service = some service)
    (hscope : service.namespace? = some scope) (model : Model) :
    targets model settings =
      (targets model (unfiltered settings)).filter fun shape => shape.id.namespace? = some scope := by
  rw [targets, targets, List.filter_filter]
  exact List.filter_congr fun shape _ => isTarget_of_namespace hservice hscope shape

theorem targets_of_relative (hservice : settings.service = some service)
    (hscope : service.namespace? = none) (model : Model) :
    targets model settings = targets model (unfiltered settings) :=
  List.filter_congr fun shape _ => isTarget_of_relative hservice hscope shape

end Rendering

/-! ## Settings of a run -/

namespace CommandLine

theorem service_of_overrideService {settings changed : Settings} {option : Option String}
    (h : overrideService settings option = .ok changed) (hservice : changed.service = some service) :
    '#' ∈ service.text.toList ∨ option = none ∧ settings.service = some service := by
  cases option with
  | none =>
    obtain rfl := Except.ok.inj h
    exact .inr ⟨rfl, hservice⟩
  | some text =>
    rw [overrideService] at h
    split at h
    · rename_i hhash
      obtain rfl := Except.ok.inj h
      obtain rfl := Option.some.inj hservice
      exact .inl (List.contains_iff_mem.mp hhash)
    · cases h

theorem service_of_baseSettings {tree : FileTree} {file : Option String} {overrides : Overrides}
    (h : baseSettings tree file overrides = .ok settings) (hservice : settings.service = some service) :
    ∃ path, file = some path ∧ Settings.load tree path = .ok settings := by
  cases file with
  | some path =>
    rw [baseSettings] at h
    cases hload : Settings.load tree path with
    | ok loaded =>
      rw [hload] at h
      obtain rfl := Except.ok.inj h
      exact ⟨path, rfl, hload⟩
    | error =>
      rw [hload] at h
      cases h
  | none =>
    rw [baseSettings] at h
    split at h
    · obtain rfl := Except.ok.inj h
      cases hservice
    · cases h

/-- A service without a namespace comes from a file. -/
theorem service_of_resolveSettings {tree : FileTree} {file : Option String} {overrides : Overrides}
    (h : resolveSettings tree file overrides = .ok settings) (hservice : settings.service = some service) :
    '#' ∈ service.text.toList ∨ overrides.service = none ∧ ∃ path loaded, file = some path ∧
      Settings.load tree path = .ok loaded ∧ loaded.service = some service := by
  obtain ⟨base, hbase, h⟩ := bind_eq_ok_iff.mp h
  obtain ⟨changed, hchanged, h⟩ := bind_eq_ok_iff.mp h
  obtain ⟨_, _, h⟩ := bind_eq_ok_iff.mp h
  obtain rfl := Except.ok.inj h
  rcases service_of_overrideService hchanged hservice with hhash | ⟨hnone, hkept⟩
  · exact .inl hhash
  · obtain ⟨path, hfile, hload⟩ := service_of_baseSettings hbase hkept
    exact .inr ⟨hnone, path, base, hfile, hload, hkept⟩

end CommandLine

/-! ## What a service leaves out -/

namespace Rendering

/-- What comes of the service that settings name. -/
structure ServiceFilter (settings : Settings) (service : ShapeId) : Prop where
  /-- Settings are accepted with any service. -/
  checked : ∀ other, Settings.check { settings with service := other } = settings.check
  /-- In a run only a file names a service without a namespace. -/
  resolved : ∀ tree file overrides, CommandLine.resolveSettings tree file overrides = .ok settings →
    '#' ∈ service.text.toList ∨ overrides.service = none ∧ ∃ path loaded, file = some path ∧
      Settings.load tree path = .ok loaded ∧ loaded.service = some service
  /-- A namespace leaves all shapes of others out. -/
  absolute : ∀ scope, service.namespace? = some scope → ∀ model, targets model settings =
    (targets model (unfiltered settings)).filter fun shape => shape.id.namespace? = some scope
  /-- A service without a namespace leaves nothing out. -/
  relative : '#' ∉ service.text.toList → ∀ model, targets model settings = targets model (unfiltered settings)
  /-- Only shapes of the service's namespace are left when it has one, or when there was no shape at all. -/
  confined : ∀ model, (∀ shape ∈ targets model settings, InNamespaceOf service shape) ↔
    '#' ∈ service.text.toList ∨ targets model (unfiltered settings) = []

/-- The shapes that are rendered for a service are those of its namespace exactly when it has one, but for models
without anything to render. -/
theorem serviceFilter_of_service (settings : Settings) (service : ShapeId)
    (hservice : settings.service = some service) : ServiceFilter settings service := by
  have hrelative (hhash : '#' ∉ service.text.toList) : service.namespace? = none := by
    rw [← ShapeId.exists_namespace?_iff, ← Option.isSome_iff_exists] at hhash
    exact Option.not_isSome_iff_eq_none.mp hhash
  refine ⟨fun _ => rfl, fun tree file overrides h => CommandLine.service_of_resolveSettings h hservice,
    fun scope hscope => targets_of_namespace hservice hscope,
    fun hhash => targets_of_relative hservice (hrelative hhash), fun model => ?_⟩
  by_cases hhash : '#' ∈ service.text.toList
  · refine iff_of_true (fun shape hmem => ?_) (.inl hhash)
    obtain ⟨scope, hscope⟩ := ShapeId.exists_namespace?_iff.mpr hhash
    rw [targets_of_namespace hservice hscope, List.mem_filter, decide_eq_true_iff] at hmem
    exact ⟨scope, hscope, hmem.2⟩
  · rw [targets_of_relative hservice (hrelative hhash), or_iff_right hhash]
    constructor
    · intro hall
      refine List.eq_nil_iff_forall_not_mem.mpr fun shape hmem => ?_
      obtain ⟨scope, hscope, _⟩ := hall shape hmem
      exact hhash (ShapeId.exists_namespace?_iff.mp ⟨scope, hscope⟩)
    · intro hempty shape hmem
      rw [hempty] at hmem
      cases hmem

/-! ## Services with and without a namespace -/

def place (id : String) : Shape := { id := ⟨id⟩, type := .struct }

/-- A model of two namespaces. -/
def placesModel : Model :=
  (Model.insert {} (place "com.example#City")).insert (place "com.other#Village")

def settingsFor (service : String) : Settings :=
  { packageName := "com.example", runtimeVersion := "1.0.0", service := some ⟨service⟩ }

theorem serviceFilter_weather :
    (settingsFor "com.example#Weather").service = some ⟨"com.example#Weather"⟩ ∧
      ServiceFilter (settingsFor "com.example#Weather") ⟨"com.example#Weather"⟩ ∧
      (targets placesModel (settingsFor "com.example#Weather")).map (·.id.text) = ["com.example#City"] :=
  ⟨rfl, serviceFilter_of_service (settingsFor "com.example#Weather") ⟨"com.example#Weather"⟩ rfl,
    by decide +kernel⟩

/-- A file with such a service. -/
def relativeTree : FileTree :=
  SortedMap.empty.insert "settings.json"
    (.file "\x7b\"packageName\":\"com.example\",\"runtimeVersion\":\"1.0.0\",\"service\":\"Weather\"\x7d")

/-- A service without a namespace is accepted from a file, and the shapes of all namespaces are rendered. -/
theorem not_inNamespaceOf_relative :
    Settings.load relativeTree "settings.json" = .ok (settingsFor "Weather") ∧
      (settingsFor "Weather").check = .ok () ∧
      (targets placesModel (settingsFor "Weather")).map (·.id.text) =
        ["com.example#City", "com.other#Village"] ∧
      ¬ ∀ shape ∈ targets placesModel (settingsFor "Weather"), InNamespaceOf ⟨"Weather"⟩ shape := by
  have hseen : (Settings.load relativeTree "settings.json").toOption.map id = some (settingsFor "Weather") := by
    decide +kernel
  obtain ⟨settings, hload, rfl⟩ := map_toOption_eq_some_iff.mp hseen
  have hids : (targets placesModel (settingsFor "Weather")).map (·.id.text) =
      ["com.example#City", "com.other#Village"] := by
    decide +kernel
  have hnone : (⟨"Weather"⟩ : ShapeId).namespace? = none := by
    decide +kernel
  refine ⟨hload, by decide +kernel, hids, fun hall => ?_⟩
  have hne : targets placesModel (settingsFor "Weather") ≠ [] := by
    intro hempty
    rw [hempty] at hids
    cases hids
  obtain ⟨shape, hmem⟩ := List.exists_mem_of_ne_nil _ hne
  obtain ⟨scope, hscope, _⟩ := hall shape hmem
  rw [hnone] at hscope
  cases hscope

end Rendering

end SmithyKotlin
