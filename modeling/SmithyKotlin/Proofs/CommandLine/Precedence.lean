import SmithyKotlin.CommandLine.Basic
import SmithyKotlin.Proofs.Settings.Encoded
import SmithyKotlin.Proofs.Settings.Forms

/-!
# Options over a settings file

`Overrides.applyTo` writes the options into settings; `resolveSettings_eq_ok_iff` says when a run with them gets
settings, and which.

* `Overrides.check_eq_ok_iff_not_mends`: where the settings with the options pass their check, those of the file do
  too, unless an option replaces a value without its form (`Overrides.Mends`).
* `resolveSettings_applyTo`: so a run with options ends like one with their values in the file, exactly when they
  mend nothing.

How a file is read is left open: it holds the settings in any form that is read as them (`FileTree.HoldsSettings`).
-/

namespace SmithyKotlin.CommandLine

namespace Overrides

/-- The settings with the values of the options written into them. -/
def applyTo (overrides : Overrides) (settings : Settings) : Settings :=
  { settings with
    packageName := overrides.package.getD settings.packageName
    runtimeVersion := overrides.runtimeVersion.getD settings.runtimeVersion
    service := (overrides.service.map ShapeId.mk).or settings.service
    continueOnError := settings.continueOnError || overrides.continueOnError }

/-- The options name an absolute service or none. -/
def IsAbsolute (overrides : Overrides) : Prop := ∀ service, overrides.service = some service → '#' ∈ service.toList

/-- The options make settings that pass their check, and replace a package or version that has not its form. -/
structure Mends (overrides : Overrides) (settings : Settings) : Prop where
  passes : (overrides.applyTo settings).check = .ok ()
  replaces : (overrides.package.isSome = true ∧ Settings.isPackage settings.packageName = false) ∨
    (overrides.runtimeVersion.isSome = true ∧ Settings.isVersion settings.runtimeVersion = false)

variable {overrides : Overrides} {settings : Settings}

theorem applyTo_none (settings : Settings) : ({} : Overrides).applyTo settings = settings := by
  rw [applyTo, Bool.or_false]
  rfl

theorem isAbsolute_none : ({} : Overrides).IsAbsolute := by
  intro service h
  cases h

/-- Where the value that counts has the form, that of the file has it unless an option replaced one without it. -/
theorem form_iff_of_getD {form : String → Bool} {given : Option String} {own : String}
    (h : form (given.getD own) = true) : form own = true ↔ ¬ (given.isSome = true ∧ form own = false) := by
  cases given with
  | none =>
    have hown : form own = true := h
    exact iff_of_true hown fun hreplaced => Bool.false_ne_true hreplaced.1
  | some value => rw [Option.isSome_some, and_iff_right rfl, Bool.not_eq_false]

/-- Where the settings with the options pass, those of the file do unless the options mend them. -/
theorem check_eq_ok_iff_not_mends (hpasses : (overrides.applyTo settings).check = .ok ()) :
    settings.check = .ok () ↔ ¬ overrides.Mends settings := by
  obtain ⟨hruntime, hversion, hpackage, htype⟩ := Settings.check_eq_ok_iff.mp hpasses
  have hfilePackage := form_iff_of_getD (show Settings.isPackage (overrides.package.getD _) = true from hpackage)
  have hfileVersion :=
    form_iff_of_getD (show Settings.isVersion (overrides.runtimeVersion.getD _) = true from hruntime)
  have hmends : overrides.Mends settings ↔
      (overrides.package.isSome = true ∧ Settings.isPackage settings.packageName = false) ∨
        (overrides.runtimeVersion.isSome = true ∧ Settings.isVersion settings.runtimeVersion = false) :=
    ⟨Mends.replaces, Mends.mk hpasses⟩
  rw [hmends, not_or, ← hfilePackage, ← hfileVersion, Settings.check_eq_ok_iff]
  constructor
  · exact fun h => ⟨h.2.2.1, h.1⟩
  · exact fun h => ⟨h.2, hversion, h.1, htype⟩

end Overrides

variable {tree other : FileTree} {path file : String} {settings resolved : Settings} {overrides : Overrides}

/-! ## Resolving -/

/-- Settings that are read from a file are checked. -/
theorem load_eq_ok_iff (hholds : tree.HoldsSettings path settings) :
    Settings.load tree path = .ok resolved ↔ settings.check = .ok () ∧ resolved = settings := by
  obtain ⟨text, hread, hsettings⟩ := hholds
  have hload : Settings.load tree path = settings.check >>= fun _ => .ok settings := by
    rw [Settings.load, hread]
    simp only [Except.mapError, ok_bind, hsettings]
    rfl
  rw [hload, bind_eq_ok_iff]
  constructor
  · rintro ⟨_, hcheck, h⟩
    exact ⟨hcheck, (Except.ok.inj h).symm⟩
  · rintro ⟨hcheck, rfl⟩
    exact ⟨(), hcheck, rfl⟩

theorem overrideService_eq (habsolute : overrides.IsAbsolute) (settings : Settings) :
    overrideService settings overrides.service =
      .ok { settings with service := (overrides.service.map ShapeId.mk).or settings.service } := by
  cases hservice : overrides.service with
  | none => rfl
  | some service =>
    rw [overrideService, if_pos (List.contains_iff_mem.mpr (habsolute service hservice))]
    rfl

/-- With a file a run has settings when both those of the file and those with the options pass their check. -/
theorem resolveSettings_eq_ok_iff (hholds : tree.HoldsSettings path settings) (habsolute : overrides.IsAbsolute) :
    resolveSettings tree (some path) overrides = .ok resolved ↔
      settings.check = .ok () ∧ (overrides.applyTo settings).check = .ok () ∧
        resolved = overrides.applyTo settings := by
  have hbase (loaded : Settings) : baseSettings tree (some path) overrides = .ok loaded ↔
      settings.check = .ok () ∧ loaded = settings := by
    rw [baseSettings, mapError_eq_ok_iff, load_eq_ok_iff hholds]
  rw [resolveSettings, bind_eq_ok_iff]
  simp only [hbase, overrideService_eq habsolute, ok_bind]
  constructor
  · rintro ⟨_, ⟨hcheck, rfl⟩, h⟩
    obtain ⟨_, hpasses, h⟩ := bind_eq_ok_iff.mp h
    exact ⟨hcheck, mapError_eq_ok_iff.mp hpasses, (Except.ok.inj h).symm⟩
  · rintro ⟨hcheck, hpasses, rfl⟩
    exact ⟨settings, ⟨hcheck, rfl⟩, bind_eq_ok_iff.mpr ⟨(), mapError_eq_ok_iff.mpr hpasses, rfl⟩⟩

/-- Without options the settings of the file are the result. -/
theorem resolveSettings_none_eq_ok_iff (hholds : tree.HoldsSettings path settings) :
    resolveSettings tree (some path) {} = .ok resolved ↔ settings.check = .ok () ∧ resolved = settings := by
  rw [resolveSettings_eq_ok_iff hholds Overrides.isAbsolute_none, Overrides.applyTo_none, ← and_assoc, and_self]

/-! ## Options and files -/

/-- Giving values by options is like having them in the file: with the settings that the options make of those of a
file, a file without options has the same result, except where the options mend settings that do not pass their
check. -/
theorem resolveSettings_applyTo (tree : FileTree) (path : String) (settings : Settings) (overrides : Overrides)
    (hholds : tree.HoldsSettings path settings) (habsolute : overrides.IsAbsolute) :
    (∃ other file, FileTree.HoldsSettings other file (overrides.applyTo settings)) ∧
      ∀ other file, FileTree.HoldsSettings other file (overrides.applyTo settings) →
        (∀ resolved, resolveSettings other (some file) {} = .ok resolved ↔
          (overrides.applyTo settings).check = .ok () ∧ resolved = overrides.applyTo settings) ∧
        (∀ resolved, resolveSettings tree (some path) overrides = .ok resolved ↔
          settings.check = .ok () ∧ resolveSettings other (some file) {} = .ok resolved) ∧
        ((resolveSettings tree (some path) overrides).toOption = (resolveSettings other (some file) {}).toOption ↔
          ¬ overrides.Mends settings) := by
  refine ⟨⟨_, _, FileTree.holdsSettings_single _⟩, fun other file hother => ?_⟩
  have hresolve (resolved : Settings) : resolveSettings tree (some path) overrides = .ok resolved ↔
      settings.check = .ok () ∧ resolveSettings other (some file) {} = .ok resolved := by
    rw [resolveSettings_eq_ok_iff hholds habsolute, resolveSettings_none_eq_ok_iff hother]
  refine ⟨fun resolved => resolveSettings_none_eq_ok_iff hother, hresolve, ?_⟩
  simp only [toOption_eq_toOption_iff, hresolve, resolveSettings_none_eq_ok_iff hother]
  constructor
  · intro hsame hmends
    have hcheck := ((hsame _).mpr ⟨hmends.passes, rfl⟩).1
    exact (Overrides.check_eq_ok_iff_not_mends hmends.passes).mp hcheck hmends
  · intro hmends resolved
    rw [and_iff_right_iff_imp]
    rintro ⟨hpasses, _⟩
    exact (Overrides.check_eq_ok_iff_not_mends hpasses).mpr hmends

/-- Settings with a relative service, which an option replaces. -/
def weather : Settings :=
  { packageName := "com.example", runtimeVersion := "1.2.0", service := some ⟨"Weather"⟩, continueOnError := true }

def release : Overrides := { runtimeVersion := some "1.3.0", service := some "com.example#Weather" }

theorem resolveSettings_applyTo_release :
    (FileTree.single weather.encode.compact).HoldsSettings "settings.json" weather ∧ release.IsAbsolute ∧
      ∃ other file, FileTree.HoldsSettings other file (release.applyTo weather) ∧
        (resolveSettings (FileTree.single weather.encode.compact) (some "settings.json") release).toOption =
          (resolveSettings other (some file) {}).toOption ∧
        resolveSettings other (some file) {} = .ok
          { packageName := "com.example", runtimeVersion := "1.3.0", service := some ⟨"com.example#Weather"⟩
            continueOnError := true } := by
  have hholds := FileTree.holdsSettings_single weather
  have habsolute : release.IsAbsolute := by
    intro service hservice
    cases hservice
    decide +kernel
  have hmends : ¬ release.Mends weather := by
    rintro ⟨_, ⟨hgiven, _⟩ | ⟨_, hinvalid⟩⟩
    · cases hgiven
    · exact absurd hinvalid (by decide +kernel)
  obtain ⟨⟨other, file, hother⟩, hsame⟩ := resolveSettings_applyTo _ _ weather release hholds habsolute
  obtain ⟨hfile, _, hagree⟩ := hsame other file hother
  exact ⟨hholds, habsolute, other, file, hother, hagree.mpr hmends, (hfile _).mpr ⟨by decide +kernel, rfl⟩⟩

/-- Settings with a version that is none, as they stand in a file. -/
def latestText : String := "\x7b\"packageName\":\"com.example\",\"runtimeVersion\":\"latest\"\x7d"

def latest : Settings := { packageName := "com.example", runtimeVersion := "latest" }

def pinned : Overrides := { runtimeVersion := some "1.3.0" }

/-- With a version by an option the run fails; with that version in the file it has settings. -/
theorem resolveSettings_ne_latest :
    (FileTree.single latestText).HoldsSettings "settings.json" latest ∧ pinned.IsAbsolute ∧
      (∀ resolved, resolveSettings (FileTree.single latestText) (some "settings.json") pinned ≠ .ok resolved) ∧
      ∃ other file, FileTree.HoldsSettings other file (pinned.applyTo latest) ∧
        resolveSettings other (some file) {} = .ok { packageName := "com.example", runtimeVersion := "1.3.0" } := by
  have hseen : (Settings.readText "settings.json" latestText).toOption.map id = some latest := by
    decide +kernel
  obtain ⟨_, hread, rfl⟩ := map_toOption_eq_some_iff.mp hseen
  have hholds : (FileTree.single latestText).HoldsSettings "settings.json" latest :=
    ⟨latestText, FileTree.readFile_single _, hread⟩
  have habsolute : pinned.IsAbsolute := by
    intro service hservice
    cases hservice
  have hother := FileTree.holdsSettings_single (pinned.applyTo latest)
  refine ⟨hholds, habsolute, fun resolved h => ?_, _, _, hother,
    (resolveSettings_none_eq_ok_iff hother).mpr ⟨by decide +kernel, rfl⟩⟩
  have hcheck := ((resolveSettings_eq_ok_iff hholds habsolute).mp h).1
  exact absurd (Settings.check_eq_ok_iff.mp hcheck).1 (by decide +kernel)

end SmithyKotlin.CommandLine
