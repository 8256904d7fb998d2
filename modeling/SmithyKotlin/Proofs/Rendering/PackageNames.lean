import SmithyKotlin.Proofs.Naming.Legality
import SmithyKotlin.Proofs.Rendering.Closure
import SmithyKotlin.Proofs.Settings.Forms
import SmithyKotlin.Proofs.Union.Accessors

/-!
# The package of a file

* `SourceFile.packageOf?_contentsOf`: every file has one line for its package, and that is the package of the
  settings with `model` behind it.  Above it there are fixed lines only (`SourceFile.find?_header`).
* `Settings.legalPath_modelPackage_iff`: its segments are identifiers, but nothing keeps keywords out of them, so
  the package is legal exactly when no segment in the settings is a keyword (`Settings.KeywordFree`).
* `renderAll_packageWritten`: so it is for every file that is rendered, and for every name in its package.

Dependencies have packages of their own, which are not looked at.
-/

namespace SmithyKotlin

open Naming

/-! ## Dotted names -/

/-- A dotted name that can stand in source without backticks. -/
def LegalPath (path : String) : Prop := ∀ segment ∈ Text.split '.' path, IsPlainName segment

theorem Text.split_append {sep : Char} (first rest : String) :
    split sep (first ++ String.singleton sep ++ rest) = split sep first ++ split sep rest := by
  have hpieces : pieces (· == sep) (first.toList ++ sep :: rest.toList) =
      pieces (· == sep) first.toList ++ pieces (· == sep) rest.toList := by
    refine pieces_append_cons ?_ _ _
    exact beq_self_eq_true sep
  rw [split, split, split, ← List.map_append, ← hpieces, String.toList_append, String.toList_append,
    String.toList_singleton, List.append_assoc, List.singleton_append]

theorem legalPath_append {first rest : String} :
    LegalPath (first ++ "." ++ rest) ↔ LegalPath first ∧ LegalPath rest := by
  rw [LegalPath, show "." = String.singleton '.' from rfl, Text.split_append, List.forall_mem_append]
  exact Iff.rfl

theorem legalPath_model : LegalPath "model" := by
  have hsplit : Text.split '.' "model" = ["model"] := by
    decide +kernel
  rw [LegalPath, hsplit, List.forall_mem_singleton]
  exact ⟨.word (.inl (by decide)) (by decide), by decide +kernel⟩

namespace Settings

variable {settings : Settings}

/-- No segment of the package is a keyword. -/
def KeywordFree (settings : Settings) : Prop := ∀ segment ∈ settings.segments, segment ∉ hardKeywords

instance : DecidablePred KeywordFree := fun settings =>
  inferInstanceAs (Decidable (∀ segment ∈ settings.segments, segment ∉ hardKeywords))

theorem modelPackage_eq (settings : Settings) : settings.modelPackage = settings.packageName ++ "." ++ "model" := by
  rw [modelPackage, String.append_assoc]
  rfl

/-- Segments are identifiers. -/
theorem identifierText_of_mem_segments (hcheck : settings.check = .ok ()) {segment : String}
    (hmem : segment ∈ settings.segments) : IdentifierText segment.toList := by
  obtain ⟨piece, hpiece, rfl⟩ := List.mem_map.mp hmem
  obtain ⟨hfirst, hrest⟩ := isPackageSegment_iff.mp (List.all_eq_true.mp (isPackage_of_check hcheck) piece hpiece)
  rw [String.toList_ofList]
  refine .word (.inl (Text.isAlpha_of_isLower hfirst)) fun c hc => ?_
  rcases hrest c hc with hlower | hdigit | hmark
  · exact .inl (Text.isAlphanum_of_isAlpha (Text.isAlpha_of_isLower hlower))
  · exact .inl (Text.isAlphanum_of_isDigit hdigit)
  · exact .inr hmark

theorem legalPath_modelPackage_iff (hcheck : settings.check = .ok ()) :
    LegalPath settings.modelPackage ↔ settings.KeywordFree := by
  rw [modelPackage_eq, legalPath_append, and_iff_left legalPath_model]
  exact forall₂_congr fun segment hmem =>
    ⟨IsPlainName.free, fun hfree => ⟨identifierText_of_mem_segments hcheck hmem, hfree⟩⟩

/-- Neither the version of the runtime nor the package ends a line. -/
theorem newline_not_mem (hcheck : settings.check = .ok ()) :
    '\n' ∉ settings.runtimeVersion.toList ∧ '\n' ∉ settings.modelPackage.toList := by
  have hforms := check_eq_ok_iff_wellFormed.mp hcheck
  constructor
  · intro hmem
    rcases hforms.runtimeVersion.mem hmem with hdigit | halphanum | hpoint | hhyphen
    · exact absurd hdigit (by decide +kernel)
    · exact absurd halphanum (by decide)
    · exact absurd hpoint (by decide)
    · exact absurd hhyphen (by decide)
  · intro hmem
    have hmodel : '\n' ∉ ".model".toList := by
      decide
    rw [modelPackage, String.toList_append, List.mem_append, or_iff_left hmodel] at hmem
    obtain ⟨piece, hpiece, hnewline⟩ :
        ∃ piece ∈ Text.pieces (· == '.') settings.packageName.toList, '\n' ∈ piece :=
      Text.exists_mem_pieces hmem (by decide)
    have hsegment := isPackageSegment_iff.mp (List.all_eq_true.mp (isPackage_of_check hcheck) piece hpiece)
    exact absurd (hsegment.mem hnewline) (by decide)

end Settings

/-! ## The line of the package -/

/-- A line that names a package. -/
def isPackageLine (line : String) : Bool := "package ".toList.isPrefixOf line.toList

/-- What stands behind `package` in the first line that starts with it. -/
def packageOf? (contents : String) : Option String :=
  ((Text.split '\n' contents).find? isPackageLine).map fun line => String.ofList (line.toList.drop 8)

theorem Text.split_of_line {sep : Char} {line : String} (hline : sep ∉ line.toList) (rest : String) :
    split sep (line ++ String.singleton sep ++ rest) = line :: split sep rest := by
  rw [split_append, split_eq_singleton hline]
  rfl

/-- Lines in front of a text are lines of it. -/
theorem Text.split_lines {lines : List String} (hlines : ∀ line ∈ lines, '\n' ∉ line.toList) (rest : String) :
    split '\n' (String.join (lines.map (· ++ "\n")) ++ rest) = lines ++ split '\n' rest := by
  induction lines with
  | nil => rw [List.map_nil, String.join_nil, String.empty_append, List.nil_append]
  | cons line others ih =>
    obtain ⟨hline, hothers⟩ := List.forall_mem_cons.mp hlines
    rw [List.map_cons, String.join_cons, String.append_assoc]
    exact (split_of_line hline _).trans (congrArg (line :: ·) (ih hothers))

namespace SourceFile

variable {settings : Settings}

theorem newline_not_mem_header (hcheck : settings.check = .ok ()) :
    ∀ line ∈ header settings, '\n' ∉ line.toList := by
  obtain ⟨hversion, hpackage⟩ := Settings.newline_not_mem hcheck
  have hruntime : '\n' ∉ ("// Targets client runtime " ++ settings.runtimeVersion ++ ".").toList := by
    rw [String.toList_append, String.toList_append, List.mem_append, List.mem_append, not_or, not_or]
    exact ⟨⟨by decide, hversion⟩, by decide⟩
  have hline : '\n' ∉ ("package " ++ settings.modelPackage).toList := by
    rw [String.toList_append, List.mem_append, not_or]
    exact ⟨by decide, hpackage⟩
  simp only [header, List.forall_mem_cons]
  exact ⟨by decide +kernel, hruntime, by decide, hline, by decide, List.forall_mem_nil _⟩

/-- The lines above the package are comments and a blank one. -/
theorem find?_header (settings : Settings) (rest : List String) :
    (header settings ++ rest).find? isPackageLine = some ("package " ++ settings.modelPackage) := by
  have hgenerated : isPackageLine ("// Code generated by smithy-sdk-generator " ++ generatorVersion ++
      ". DO NOT EDIT.") = false := by
    decide +kernel
  have hruntime : isPackageLine ("// Targets client runtime " ++ settings.runtimeVersion ++ ".") = false := by
    rw [isPackageLine, String.append_assoc, String.toList_append]
    exact isPrefixOf_append_eq_false (by decide) _
  have hblank : isPackageLine "" = false := by
    decide
  have hpackage : isPackageLine ("package " ++ settings.modelPackage) = true := by
    rw [isPackageLine, String.toList_append]
    exact List.isPrefixOf_iff_prefix.mpr (List.prefix_append _ _)
  simp only [header, List.cons_append, List.find?_cons, hgenerated, hruntime, hblank, hpackage]

theorem packageOf?_contentsOf (hcheck : settings.check = .ok ()) (written : Writer) :
    packageOf? (contentsOf settings written) = some settings.modelPackage := by
  have hpath : ("package " ++ settings.modelPackage).toList.drop 8 = settings.modelPackage.toList := by
    rw [String.toList_append]
    exact List.drop_left' rfl
  rw [packageOf?, contentsOf, String.append_assoc, String.append_assoc,
    Text.split_lines (newline_not_mem_header hcheck), find?_header, Option.map_some, hpath, String.ofList_toList]

variable {model : Model} {symbols : SymbolProvider} {shape : Shape} {file : SourceFile}

theorem packageOf?_render (hcheck : settings.check = .ok ())
    (h : render model symbols settings shape = .ok file) :
    packageOf? file.contents = some settings.modelPackage := by
  obtain ⟨_, _, rfl⟩ := render_eq_ok_iff.mp h
  exact packageOf?_contentsOf hcheck _

end SourceFile

/-! ## Names in the package -/

/-- What is written of the package of the settings. -/
structure PackageWritten (model : Model) (symbols : SymbolProvider) (settings : Settings) : Prop where
  identifiers : ∀ segment ∈ Text.split '.' settings.modelPackage, IdentifierText segment.toList
  legal : LegalPath settings.modelPackage ↔ settings.KeywordFree
  /-- A name in the package is as legal as the package and what stands behind it. -/
  qualified : ∀ rest, LegalPath (settings.modelPackage ++ "." ++ rest) ↔ settings.KeywordFree ∧ LegalPath rest
  /-- Generated types have such names. -/
  types : ∀ shape : Shape, shape.IsGenerated → ∀ symbol,
    (SymbolProvider.kotlin settings).shapeSymbol model shape = .ok symbol →
      symbol.qualifiedName = settings.modelPackage ++ "." ++ pascalCase shape.id.name
  /-- Every file is in the package. -/
  files : ∀ rendering, Rendering.renderAll model symbols settings = .ok rendering →
    ∀ key file, rendering.files.get? key = some file → packageOf? file.contents = some settings.modelPackage

variable {model : Model} {symbols : SymbolProvider} {settings : Settings}

theorem packageOf?_renderAll (hcheck : settings.check = .ok ()) {rendering : Rendering}
    (h : Rendering.renderAll model symbols settings = .ok rendering) {key : String} {file : SourceFile}
    (hfile : rendering.files.get? key = some file) : packageOf? file.contents = some settings.modelPackage := by
  obtain ⟨hresult, _⟩ := Rendering.of_files_get?_merge h hfile
  obtain ⟨shape, _, hrender⟩ := List.mem_map.mp hresult
  exact SourceFile.packageOf?_render hcheck (Prod.mk.inj hrender).2

theorem qualifiedName_of_isGenerated {shape : Shape} (hgenerated : shape.IsGenerated) {symbol : Symbol}
    (h : (SymbolProvider.kotlin settings).shapeSymbol model shape = .ok symbol) :
    symbol.qualifiedName = settings.modelPackage ++ "." ++ pascalCase shape.id.name := by
  have hempty : settings.modelPackage.isEmpty = false := by
    rw [String.isEmpty_eq_false_iff]
    exact settings.modelPackage_ne (by decide +kernel)
  rw [Shape.shapeSymbol_eq hgenerated.1 h, hgenerated.2, if_neg Bool.false_ne_true, Symbol.qualifiedName,
    KotlinType.symbol, Symbol.qualify, hempty]
  rfl

/-- With settings that pass their check the package of every file consists of identifiers, and it and the names
in it are legal exactly when no segment in the settings is a keyword. -/
theorem renderAll_packageWritten (model : Model) (symbols : SymbolProvider) (settings : Settings)
    (hcheck : settings.check = .ok ()) : PackageWritten model symbols settings := by
  have hlegal := Settings.legalPath_modelPackage_iff hcheck
  refine ⟨fun segment hmem => ?_, hlegal, fun rest => ?_, fun _ hgenerated _ => qualifiedName_of_isGenerated hgenerated,
    fun _ hrendering _ _ => packageOf?_renderAll hcheck hrendering⟩
  · rw [Settings.modelPackage_eq, show "." = String.singleton '.' from rfl, Text.split_append] at hmem
    rcases List.mem_append.mp hmem with hsegment | hmodel
    · exact Settings.identifierText_of_mem_segments hcheck hsegment
    · exact (legalPath_model segment hmodel).identifier
  · rw [legalPath_append, hlegal]

/-- A structure without members. -/
def placeModel : Model := Model.insert {} { id := ⟨"com.example#Place"⟩, type := .struct }

def settingsIn (package : String) : Settings := { packageName := package, runtimeVersion := "1.0.0" }

/-- Rendering the structure in a package. -/
def placeIn (package : String) : Except CodegenError Rendering :=
  Rendering.renderAll placeModel (.kotlin (settingsIn package)) (settingsIn package)

/-- The structure has a file in the package. -/
theorem exists_placeFile (package : String)
    (hrendered : (placeIn package).toOption.map (fun rendering => (rendering.files.get? "com.example#Place").isSome) =
      some true) :
    ∃ rendering file, placeIn package = .ok rendering ∧ rendering.files.get? "com.example#Place" = some file := by
  obtain ⟨rendering, hrendering, hsome⟩ := map_toOption_eq_some_iff.mp hrendered
  obtain ⟨file, hfile⟩ := Option.isSome_iff_exists.mp hsome
  exact ⟨rendering, file, hrendering, hfile⟩

theorem renderAll_packageWritten_inbox :
    (settingsIn "com.inbox.v2_api").check = .ok () ∧ ∃ rendering file,
      placeIn "com.inbox.v2_api" = .ok rendering ∧ rendering.files.get? "com.example#Place" = some file ∧
      packageOf? file.contents = some "com.inbox.v2_api.model" ∧ LegalPath "com.inbox.v2_api.model" := by
  have hcheck : (settingsIn "com.inbox.v2_api").check = .ok () := by
    decide +kernel
  have hwritten := renderAll_packageWritten placeModel (.kotlin (settingsIn "com.inbox.v2_api"))
    (settingsIn "com.inbox.v2_api") hcheck
  obtain ⟨rendering, file, hrendering, hfile⟩ := exists_placeFile "com.inbox.v2_api" (by decide +kernel)
  exact ⟨hcheck, rendering, file, hrendering, hfile, hwritten.files rendering hrendering _ file hfile,
    hwritten.legal.mpr (by decide +kernel)⟩

/-- A keyword in the package of a file. -/
theorem not_legalPath_in :
    (settingsIn "com.in").check = .ok () ∧ (∃ rendering file,
      placeIn "com.in" = .ok rendering ∧ rendering.files.get? "com.example#Place" = some file ∧
      packageOf? file.contents = some "com.in.model") ∧ ¬ LegalPath "com.in.model" := by
  have hcheck : (settingsIn "com.in").check = .ok () := by
    decide +kernel
  have hmem : "in" ∈ Text.split '.' "com.in.model" := by
    decide +kernel
  obtain ⟨rendering, file, hrendering, hfile⟩ := exists_placeFile "com.in" (by decide +kernel)
  refine ⟨hcheck, ⟨rendering, file, hrendering, hfile, packageOf?_renderAll hcheck hrendering hfile⟩, fun h => ?_⟩
  exact (h "in" hmem).free (by decide +kernel)

end SmithyKotlin
