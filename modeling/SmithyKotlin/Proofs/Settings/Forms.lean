import Mathlib.Data.List.TakeWhile
import SmithyKotlin.Proofs.Naming.Casing
import SmithyKotlin.Settings.Basic

/-!
# The forms of settings

* `VersionText`, `PackageText`, `TypeNameText`: grammars for versions, packages and names of types, each as its
  language is described and not as it is looked for; `isVersion_iff`, `isPackage_iff` and `isTypeName_iff` say that
  just these texts are found.
* `Settings.check_eq_ok_iff_wellFormed`: so settings pass their check exactly when their texts are of these forms,
  where the numbers of a version may be written with the decimal digits of any script.
* `Settings.wellFormed_isAsciiDigit_iff`: they have the forms with ASCII digits when their versions are of ASCII
  characters, and only then.
* `Settings.check_wellFormed` puts the two together.

The service is not checked, so it has no form.
-/

namespace SmithyKotlin

namespace Settings

/-! ## Grammars -/

/-- Characters of one kind, at least one. -/
structure IsRun (kind : Char → Prop) (run : List Char) : Prop where
  nonempty : run ≠ []
  all : ∀ c ∈ run, kind c

/-- `CORE ::= DIGIT+ '.' DIGIT+ '.' DIGIT+` -/
inductive CoreText (digit : Char → Prop) : List Char → Prop where
  | numbers {major minor patch : List Char} (hmajor : IsRun digit major) (hminor : IsRun digit minor)
      (hpatch : IsRun digit patch) : CoreText digit (major ++ '.' :: (minor ++ '.' :: patch))

/-- `VERSION ::= CORE | CORE '-' [0-9A-Za-z.-]+` -/
inductive VersionText (digit : Char → Prop) : List Char → Prop where
  | release {core : List Char} (hcore : CoreText digit core) : VersionText digit core
  | qualified {core qualifier : List Char} (hcore : CoreText digit core)
      (hqualifier : IsRun (fun c => c.isAlphanum = true ∨ c = '.' ∨ c = '-') qualifier) :
      VersionText digit (core ++ '-' :: qualifier)

/-- `SEGMENT ::= [a-z] [a-z0-9_]*` -/
inductive SegmentText : List Char → Prop where
  | word {first : Char} {rest : List Char} (hfirst : first.isLower = true)
      (hrest : ∀ c ∈ rest, c.isLower = true ∨ c.isDigit = true ∨ c = '_') : SegmentText (first :: rest)

/-- `PACKAGE ::= SEGMENT | SEGMENT '.' PACKAGE` -/
inductive PackageText : List Char → Prop where
  | last {segment : List Char} (hsegment : SegmentText segment) : PackageText segment
  | cons {segment rest : List Char} (hsegment : SegmentText segment) (hrest : PackageText rest) :
      PackageText (segment ++ '.' :: rest)

/-- `NAME ::= [A-Z] [A-Za-z0-9]*` -/
inductive TypeNameText : List Char → Prop where
  | word {first : Char} {rest : List Char} (hfirst : first.isUpper = true)
      (hrest : ∀ c ∈ rest, c.isAlphanum = true) : TypeNameText (first :: rest)

/-- Settings whose texts are of the forms, with digits of the given kind in the versions. -/
structure WellFormed (digit : Char → Prop) (settings : Settings) : Prop where
  runtimeVersion : VersionText digit settings.runtimeVersion.toList
  packageVersion : VersionText digit settings.packageVersion.toList
  packageName : PackageText settings.packageName.toList
  unknownVariantName : TypeNameText settings.unknownVariantName.toList

end Settings

/-! ## Parts between points -/

/-- The first part of a text is the whole of it, or ends at the first separator. -/
theorem Text.eq_of_pieces_eq_cons {sep : Char → Bool} {cs piece : List Char} {others : List (List Char)}
    (h : pieces sep cs = piece :: others) :
    (others = [] ∧ cs = piece) ∨
      ∃ c rest, sep c = true ∧ cs = piece ++ c :: rest ∧ pieces sep rest = others := by
  induction cs generalizing piece with
  | nil =>
    obtain ⟨rfl, rfl⟩ := List.cons.inj h
    exact .inl ⟨rfl, rfl⟩
  | cons c rest ih =>
    rw [pieces] at h
    by_cases hc : sep c = true
    · rw [if_pos hc] at h
      obtain ⟨rfl, hothers⟩ := List.cons.inj h
      exact .inr ⟨c, rest, hc, rfl, hothers⟩
    · rw [if_neg hc] at h
      cases hrest : pieces sep rest with
      | nil => exact absurd hrest (pieces_ne_nil sep rest)
      | cons first later =>
        rw [hrest] at h
        obtain ⟨rfl, rfl⟩ := List.cons.inj h
        rcases ih hrest with ⟨hnone, rfl⟩ | ⟨d, behind, hd, rfl, hbehind⟩
        · exact .inl ⟨hnone, rfl⟩
        · exact .inr ⟨d, behind, hd, rfl, hbehind⟩

/-- A decimal digit of any script is no white space. -/
theorem Text.isBlank_of_isDecimalDigit {c : Char} (h : isDecimalDigit c = true) : isBlank c = false := by
  have hruns : ∀ run ∈ decimalDigitRuns, 0x21 ≤ run.1 ∧ (run.2 < 0x85 ∨ 0xa1 ≤ run.1) ∧
      (run.2 < 0x1680 ∨ 0x1681 ≤ run.1) ∧ (run.2 < 0x2000 ∨ 0x3001 ≤ run.1) := by
    decide +kernel
  obtain ⟨run, hmem, hbounds⟩ := List.any_eq_true.mp h
  rw [Bool.and_eq_true, decide_eq_true_eq, decide_eq_true_eq] at hbounds
  have hrun := hruns run hmem
  simp only [isBlank, Bool.or_eq_false_iff, Bool.and_eq_false_iff, decide_eq_false_iff_not, beq_eq_false_iff_ne]
  omega

/-- A text that starts with something else than white space is not blank. -/
theorem Text.isEmpty_trim_of_head {text : String} {c : Char} {rest : List Char} (htext : text.toList = c :: rest)
    (hc : isBlank c = false) : (trim text).isEmpty = false := by
  rw [String.isEmpty_eq_false_iff, trim, Ne, String.ofList_eq_empty_iff, dropBlanksEnd, List.reverse_eq_nil_iff,
    htext, List.dropWhile_cons_of_neg (ne_true_of_eq_false hc), List.dropWhile_eq_nil_iff]
  intro hall
  rw [hall c (List.mem_reverse.mpr List.mem_cons_self)] at hc
  cases hc

namespace Settings

variable {digit : Char → Prop}

/-! ## Versions -/

theorem isRun_iff {kind : Char → Prop} {p : Char → Bool} (hkind : ∀ c, kind c ↔ p c = true) {run : List Char} :
    IsRun kind run ↔ (!run.isEmpty && run.all p) = true := by
  rw [Bool.and_eq_true, Bool.not_eq_true', List.isEmpty_eq_false_iff, List.all_eq_true]
  constructor
  · exact fun h => ⟨h.nonempty, fun c hc => (hkind c).mp (h.all c hc)⟩
  · exact fun h => ⟨h.1, fun c hc => (hkind c).mpr (h.2 c hc)⟩

theorem isQualifierChar_iff (c : Char) :
    (c.isAlphanum = true ∨ c = '.' ∨ c = '-') ↔ isQualifierChar c = true := by
  rw [isQualifierChar, Bool.or_eq_true, Bool.or_eq_true, decide_eq_true_eq, decide_eq_true_eq, or_assoc]

/-- A decimal digit of any script. -/
def IsDigit (c : Char) : Prop := Text.isDecimalDigit c = true

instance : DecidablePred IsDigit := fun c => inferInstanceAs (Decidable (Text.isDecimalDigit c = true))

theorem IsRun.pieces_eq {run : List Char} (h : IsRun IsDigit run) : Text.pieces (· = '.') run = [run] := by
  refine Text.pieces_eq_singleton fun c hc => decide_eq_false ?_
  rintro rfl
  exact absurd (h.all '.' hc) (by decide +kernel)

/-- Three parts between points, each a run of digits. -/
theorem isVersionCore_iff {cs : List Char} : isVersionCore cs = true ↔ CoreText IsDigit cs := by
  have hrun {run : List Char} : IsRun IsDigit run ↔ (!run.isEmpty && run.all Text.isDecimalDigit) = true :=
    isRun_iff fun _ => Iff.rfl
  constructor
  · intro h
    rw [isVersionCore] at h
    split at h
    · rename_i major minor patch hpieces
      have hruns (run) (hmem : run ∈ [major, minor, patch]) : IsRun IsDigit run :=
        hrun.mpr (List.all_eq_true.mp h run hmem)
      rcases Text.eq_of_pieces_eq_cons hpieces with ⟨hnone, _⟩ | ⟨_, rest, hpoint, rfl, hrest⟩
      · cases hnone
      rcases Text.eq_of_pieces_eq_cons hrest with ⟨hnone, _⟩ | ⟨_, last, hpoint', rfl, hlast⟩
      · cases hnone
      rcases Text.eq_of_pieces_eq_cons hlast with ⟨_, rfl⟩ | ⟨_, behind, _, _, hbehind⟩
      · rw [of_decide_eq_true hpoint, of_decide_eq_true hpoint']
        exact .numbers (hruns major (by simp)) (hruns minor (by simp)) (hruns last (by simp))
      · exact absurd hbehind (Text.pieces_ne_nil _ behind)
    · cases h
  · rintro ⟨hmajor, hminor, hpatch⟩
    have hpoint : decide ('.' = '.') = true := rfl
    rw [isVersionCore, Text.pieces_append_cons hpoint, Text.pieces_append_cons hpoint, hmajor.pieces_eq,
      hminor.pieces_eq, hpatch.pieces_eq]
    refine List.all_eq_true.mpr (List.forall_mem_cons.mpr ⟨hrun.mp hmajor, ?_⟩)
    exact List.forall_mem_cons.mpr ⟨hrun.mp hminor, List.forall_mem_singleton.mpr (hrun.mp hpatch)⟩

theorem CoreText.mem {core : List Char} (h : CoreText digit core) {c : Char} (hc : c ∈ core) :
    digit c ∨ c = '.' := by
  obtain ⟨hmajor, hminor, hpatch⟩ := h
  simp only [List.mem_append, List.mem_cons] at hc
  rcases hc with hc | rfl | hc | rfl | hc
  · exact .inl (hmajor.all c hc)
  · exact .inr rfl
  · exact .inl (hminor.all c hc)
  · exact .inr rfl
  · exact .inl (hpatch.all c hc)

/-- All characters of a version. -/
theorem VersionText.mem {text : List Char} (h : VersionText digit text) {c : Char} (hc : c ∈ text) :
    digit c ∨ c.isAlphanum = true ∨ c = '.' ∨ c = '-' := by
  cases h with
  | release hcore => exact (hcore.mem hc).imp_right fun hpoint => .inr (.inl hpoint)
  | qualified hcore hqualifier =>
    simp only [List.mem_append, List.mem_cons] at hc
    rcases hc with hc | rfl | hc
    · exact (hcore.mem hc).imp_right fun hpoint => .inr (.inl hpoint)
    · exact .inr (.inr (.inr rfl))
    · exact .inr (hqualifier.all c hc)

/-- A version stays one when its digits count as such in another way. -/
theorem VersionText.of_forall {other : Char → Prop} {text : List Char} (h : VersionText digit text)
    (hall : ∀ c ∈ text, digit c → other c) : VersionText other text := by
  have hrun {run : List Char} (hrun : IsRun digit run) (hmem : ∀ c ∈ run, c ∈ text) : IsRun other run :=
    ⟨hrun.nonempty, fun c hc => hall c (hmem c hc) (hrun.all c hc)⟩
  have hcore {core : List Char} (hcore : CoreText digit core) (hmem : ∀ c ∈ core, c ∈ text) :
      CoreText other core := by
    obtain ⟨hmajor, hminor, hpatch⟩ := hcore
    simp only [List.mem_append, List.mem_cons] at hmem
    exact .numbers (hrun hmajor fun c hc => hmem c (.inl hc))
      (hrun hminor fun c hc => hmem c (.inr (.inr (.inl hc))))
      (hrun hpatch fun c hc => hmem c (.inr (.inr (.inr (.inr hc)))))
  cases h with
  | release h => exact .release (hcore h fun _ hc => hc)
  | qualified h hqualifier => exact .qualified (hcore h fun _ hc => List.mem_append_left _ hc) hqualifier

/-- A number of a version has no hyphen, so a qualifier starts behind the first one. -/
theorem isVersion_iff {version : String} : isVersion version = true ↔ VersionText IsDigit version.toList := by
  have hqualifier {text : List Char} : IsRun (fun c => c.isAlphanum = true ∨ c = '.' ∨ c = '-') text ↔
      (!text.isEmpty && text.all isQualifierChar) = true :=
    isRun_iff isQualifierChar_iff
  have hhyphen {core : List Char} (h : CoreText IsDigit core) : '-' ∉ core := by
    intro hmem
    rcases h.mem hmem with hdigit | hpoint
    · exact absurd hdigit (by decide +kernel)
    · exact absurd hpoint (by decide)
  rw [isVersion]
  constructor
  · intro h
    split at h
    · exact .release (isVersionCore_iff.mp h)
    · rename_i core qualifier hcut
      rw [Bool.and_assoc, Bool.and_eq_true, isVersionCore_iff, ← hqualifier] at h
      rw [(Text.cutList_eq_some_iff.mp hcut).1]
      exact .qualified h.1 h.2
  · intro h
    generalize version.toList = text at h
    cases h with
    | release hcore =>
      rw [Text.cutList_eq_none_iff.mpr (hhyphen hcore)]
      exact isVersionCore_iff.mpr hcore
    | qualified hcore hbehind =>
      rw [Text.cutList_eq_some_iff.mpr ⟨rfl, hhyphen hcore⟩]
      show (isVersionCore _ && _ && _) = true
      rw [Bool.and_assoc, Bool.and_eq_true]
      exact ⟨isVersionCore_iff.mpr hcore, hqualifier.mp hbehind⟩

example : isVersion "1.2.3-rc.1" = true := by decide +kernel

/-! ## Packages and names of types -/

theorem isPackageSegment_iff {segment : List Char} : isPackageSegment segment = true ↔ SegmentText segment := by
  cases segment with
  | nil =>
    constructor
    · intro h
      cases h
    · intro h
      cases h
  | cons first rest =>
    rw [isPackageSegment, Bool.and_eq_true, List.all_eq_true]
    simp only [Bool.or_eq_true, decide_eq_true_eq, or_assoc]
    constructor
    · exact fun h => .word h.1 h.2
    · rintro ⟨hfirst, hrest⟩
      exact ⟨hfirst, hrest⟩

/-- All characters of a segment. -/
theorem SegmentText.mem {segment : List Char} (h : SegmentText segment) {c : Char} (hc : c ∈ segment) :
    c.isLower = true ∨ c.isDigit = true ∨ c = '_' := by
  obtain ⟨hfirst, hrest⟩ := h
  rcases List.mem_cons.mp hc with rfl | hc
  · exact .inl hfirst
  · exact hrest c hc

theorem SegmentText.point_not_mem {segment : List Char} (h : SegmentText segment) : '.' ∉ segment :=
  fun hmem => absurd (h.mem hmem) (by decide)

/-- Segments between points: the first one is whole, or a package follows its point. -/
theorem packageText_of_pieces {text : List Char} {segments : List (List Char)}
    (hpieces : Text.pieces (· = '.') text = segments) (hall : ∀ segment ∈ segments, SegmentText segment) :
    PackageText text := by
  induction segments generalizing text with
  | nil => exact absurd hpieces (Text.pieces_ne_nil _ text)
  | cons segment others ih =>
    obtain ⟨hsegment, hothers⟩ := List.forall_mem_cons.mp hall
    rcases Text.eq_of_pieces_eq_cons hpieces with ⟨_, rfl⟩ | ⟨_, rest, hpoint, rfl, hrest⟩
    · exact .last hsegment
    · rw [of_decide_eq_true hpoint]
      exact .cons hsegment (ih hrest hothers)

theorem isPackage_iff {name : String} : isPackage name = true ↔ PackageText name.toList := by
  rw [isPackage, List.all_eq_true]
  simp only [isPackageSegment_iff]
  constructor
  · exact packageText_of_pieces rfl
  · intro h
    have hpieces {segment : List Char} (h : SegmentText segment) : Text.pieces (· = '.') segment = [segment] := by
      refine Text.pieces_eq_singleton fun c hc => decide_eq_false ?_
      rintro rfl
      exact h.point_not_mem hc
    generalize name.toList = text at h
    induction h with
    | last hsegment =>
      rw [hpieces hsegment]
      exact List.forall_mem_singleton.mpr hsegment
    | cons hsegment _ ih =>
      rw [Text.pieces_append_cons (decide_eq_true rfl), hpieces hsegment]
      exact List.forall_mem_cons.mpr ⟨hsegment, ih⟩

theorem isTypeName_iff {name : String} : isTypeName name = true ↔ TypeNameText name.toList := by
  rw [isTypeName, Bool.and_eq_true, List.all_eq_true]
  cases name.toList with
  | nil =>
    constructor
    · intro h
      cases h.1
    · intro h
      cases h
  | cons first rest =>
    rw [List.head?_cons, Option.any_some, List.forall_mem_cons]
    constructor
    · exact fun h => .word h.1 h.2.2
    · rintro ⟨hfirst, hrest⟩
      exact ⟨hfirst, Text.isAlphanum_of_isAlpha (Text.isAlpha_of_isUpper hfirst), hrest⟩

/-! ## Checking -/

/-- A version is not blank, so it is not taken for a missing one. -/
theorem isEmpty_trim_of_isVersion {version : String} (h : isVersion version = true) :
    (Text.trim version).isEmpty = false := by
  have hcore {core : List Char} (h : CoreText IsDigit core) (behind : List Char) :
      ∃ c rest, core ++ behind = c :: rest ∧ IsDigit c := by
    obtain ⟨hmajor, _, _⟩ := h
    obtain ⟨c, rest, rfl⟩ := List.exists_cons_of_ne_nil hmajor.nonempty
    exact ⟨c, _, rfl, hmajor.all c List.mem_cons_self⟩
  obtain ⟨c, rest, htext, hdigit⟩ : ∃ c rest, version.toList = c :: rest ∧ IsDigit c := by
    have hversion := isVersion_iff.mp h
    generalize version.toList = text at hversion
    cases hversion with
    | release h =>
      obtain ⟨c, rest, hlist, hdigit⟩ := hcore h []
      rw [List.append_nil] at hlist
      exact ⟨c, rest, hlist, hdigit⟩
    | qualified h _ => exact hcore h _
  exact Text.isEmpty_trim_of_head htext (Text.isBlank_of_isDecimalDigit hdigit)

theorem check_eq_ok_iff {settings : Settings} : settings.check = .ok () ↔
    isVersion settings.runtimeVersion = true ∧ isVersion settings.packageVersion = true ∧
      isPackage settings.packageName = true ∧ isTypeName settings.unknownVariantName = true := by
  rw [check]
  cases hruntime : isVersion settings.runtimeVersion with
  | false => split <;> simp
  | true =>
    rw [isEmpty_trim_of_isVersion hruntime]
    cases isVersion settings.packageVersion <;> cases isPackage settings.packageName <;>
      cases isTypeName settings.unknownVariantName <;> simp

/-- Settings pass their check when their texts are of the forms, with digits of any script. -/
theorem check_eq_ok_iff_wellFormed {settings : Settings} :
    settings.check = .ok () ↔ settings.WellFormed IsDigit := by
  rw [check_eq_ok_iff, isVersion_iff, isVersion_iff, isPackage_iff, isTypeName_iff]
  constructor
  · exact fun h => ⟨h.1, h.2.1, h.2.2.1, h.2.2.2⟩
  · exact fun h => ⟨h.runtimeVersion, h.packageVersion, h.packageName, h.unknownVariantName⟩

/-! ## Digits of ASCII -/

/-- A digit from `0` to `9`. -/
def IsAsciiDigit (c : Char) : Prop := c.isDigit = true

theorem isAsciiDigit_iff {c : Char} : IsAsciiDigit c ↔ IsDigit c ∧ c.toNat < 0x80 := by
  have hall : ∀ c : Char, c.toNat < 0x80 → (c.isDigit = true ↔ Text.isDecimalDigit c = true) :=
    Text.forall_ascii (by decide +kernel)
  constructor
  · intro h
    have hascii : c.toNat < 0x80 := Text.toNat_lt_of_isAlphanum (Text.isAlphanum_of_isDigit h)
    exact ⟨(hall c hascii).mp h, hascii⟩
  · exact fun h => (hall c h.2).mpr h.1

/-- Text of ASCII characters only. -/
def IsAscii (text : List Char) : Prop := ∀ c ∈ text, c.toNat < 0x80

instance : DecidablePred IsAscii := fun text => inferInstanceAs (Decidable (∀ c ∈ text, c.toNat < 0x80))

theorem versionText_isAsciiDigit_iff {text : List Char} :
    VersionText IsAsciiDigit text ↔ VersionText IsDigit text ∧ IsAscii text := by
  constructor
  · intro h
    refine ⟨h.of_forall fun c _ hdigit => (isAsciiDigit_iff.mp hdigit).1, fun c hc => ?_⟩
    rcases h.mem hc with hdigit | halphanum | rfl | rfl
    · exact (isAsciiDigit_iff.mp hdigit).2
    · exact Text.toNat_lt_of_isAlphanum halphanum
    · decide
    · decide
  · exact fun h => h.1.of_forall fun c hc hdigit => isAsciiDigit_iff.mpr ⟨hdigit, h.2 c hc⟩

/-- Both versions are of ASCII characters. -/
def AsciiVersions (settings : Settings) : Prop :=
  IsAscii settings.runtimeVersion.toList ∧ IsAscii settings.packageVersion.toList

instance : DecidablePred AsciiVersions := fun _ => inferInstanceAs (Decidable (_ ∧ _))

theorem wellFormed_isAsciiDigit_iff {settings : Settings} :
    settings.WellFormed IsAsciiDigit ↔ settings.WellFormed IsDigit ∧ settings.AsciiVersions := by
  constructor
  · intro h
    obtain ⟨hruntime, hruntimeAscii⟩ := versionText_isAsciiDigit_iff.mp h.runtimeVersion
    obtain ⟨hpackage, hpackageAscii⟩ := versionText_isAsciiDigit_iff.mp h.packageVersion
    exact ⟨⟨hruntime, hpackage, h.packageName, h.unknownVariantName⟩, hruntimeAscii, hpackageAscii⟩
  · rintro ⟨h, hruntime, hpackage⟩
    exact ⟨versionText_isAsciiDigit_iff.mpr ⟨h.runtimeVersion, hruntime⟩,
      versionText_isAsciiDigit_iff.mpr ⟨h.packageVersion, hpackage⟩, h.packageName, h.unknownVariantName⟩

/-- Settings pass their check exactly when their texts are of the forms, with decimal digits of any script in the
versions.  With ASCII digits only this is so for all settings but those that pass with other digits. -/
theorem check_wellFormed (settings : Settings) :
    (settings.check = .ok () ↔ settings.WellFormed IsDigit) ∧
      ((settings.check = .ok () ↔ settings.WellFormed IsAsciiDigit) ↔
        (settings.check = .ok () → settings.AsciiVersions)) := by
  refine ⟨check_eq_ok_iff_wellFormed, ?_⟩
  rw [wellFormed_isAsciiDigit_iff, ← check_eq_ok_iff_wellFormed]
  exact iff_self_and

example : Settings.check { packageName := "com.example", runtimeVersion := "1.0.0\n" } =
    .error (.invalidRuntimeVersion "1.0.0\n") := by
  decide +kernel

/-- Settings with a version in Arabic-Indic digits. -/
def arabicIndic : Settings := { packageName := "com.example", runtimeVersion := "\u0661.\u0662.\u0663" }

/-- Digits of another script pass the check. -/
theorem not_wellFormed_arabicIndic :
    arabicIndic.check = .ok () ∧ ¬ arabicIndic.WellFormed IsAsciiDigit := by
  refine ⟨by decide +kernel, fun h => ?_⟩
  have hascii := (wellFormed_isAsciiDigit_iff.mp h).2
  exact absurd hascii (by decide +kernel)

end Settings

end SmithyKotlin
