import SmithyKotlin.Proofs.Collections.SortedMap
import SmithyKotlin.Proofs.Json.Printed
import SmithyKotlin.Proofs.Json.Written
import SmithyKotlin.Settings.File

/-!
# Settings in a file

* `FileTree.HoldsSettings`: a file holds settings when they are what is read of its text, whether or not they pass
  their check.
* `Settings.readJson_compact_encode`: all settings are read back from the JSON text that is written of them.
* `FileTree.holdsSettings_single`: so there is a tree with a file that holds them.

YAML is read only, so no text is written for it.
-/

namespace SmithyKotlin

namespace Settings

/-- All parts of settings. -/
def Parts.ofSettings (settings : Settings) : Parts where
  packageName := some settings.packageName
  packageVersion := some settings.packageVersion
  runtimeVersion := some settings.runtimeVersion
  service := some settings.service
  continueOnError := some settings.continueOnError
  unknownVariantName := some settings.unknownVariantName

/-- All parts are found in what is written of settings. -/
theorem decode_encode (origin : Origin) (settings : Settings) :
    decode origin (.ofJson settings.encode) = .ok settings := by
  have hread : recordType.read origin Parts.step {} (.ofJson settings.encode) =
      .ok (Parts.ofSettings settings, .named) := by
    refine RecordType.read_ofJson (by simp [recordType]) ?_
    -- a service is written as a text, none as `null`
    obtain ⟨_, _, _, service, _, _⟩ := settings
    cases service with
    | none => rfl
    | some id => rfl
  rw [decode, hread]
  rfl

/-- No setting is a number. -/
theorem printable_encode (settings : Settings) : settings.encode.Printable := by
  have hservice : (settings.service.elim Json.null fun id => .string id.text).Printable := by
    cases settings.service with
    | none => exact True.intro
    | some id => exact True.intro
  exact ⟨True.intro, True.intro, True.intro, hservice, True.intro, True.intro, True.intro⟩

theorem readJson_compact_encode (settings : Settings) : readJson settings.encode.compact = .ok settings := by
  rw [readJson, Source.read_compact settings.printable_encode, decode_encode]
  rfl

end Settings

namespace FileTree

/-- The path leads to a file that the settings are read from, whether or not they pass their check. -/
def HoldsSettings (tree : FileTree) (path : String) (settings : Settings) : Prop :=
  ∃ text, tree.readFile path = .ok text ∧ Settings.readText path text = .ok settings

/-- A settings file with nothing around it. -/
def single (text : String) : FileTree := SortedMap.empty.insert "settings.json" (.file text)

theorem readFile_single (text : String) : (single text).readFile "settings.json" = .ok text := by
  have hsteps : fileSteps? "settings.json" = .ok ["settings.json"] := by
    decide +kernel
  have hnode : (single text).node? ["settings.json"] = some (.file text) := by
    rw [node?, if_neg (by decide), single]
    exact SortedMap.get?_insert_self _ _ _
  have hlocate : (single text).locate ["settings.json"] = .ok (["settings.json"], some (.file text)) := by
    rw [← hnode]
    rfl
  rw [readFile, if_neg (by decide), hsteps]
  simp only [ok_bind, hlocate]

/-- A file with the text of the settings holds them. -/
theorem holdsSettings_single (settings : Settings) :
    (single settings.encode.compact).HoldsSettings "settings.json" settings := by
  refine ⟨settings.encode.compact, readFile_single _, ?_⟩
  have hending : (Path.ending? "settings.json").map Text.asciiLower = some "json" := by
    decide +kernel
  rw [Settings.readText, hending]
  simp only [Settings.readJson_compact_encode]
  rfl

end FileTree

end SmithyKotlin
