import Mathlib.Data.String.Basic
import SmithyKotlin.Naming
import SmithyKotlin.Proofs.Text.Pieces

/-!
# Casing names

* `isAlphanum_of_mem_pascal`, `isAlphanum_of_mem_camel`: names made of ASCII letters, digits and underscores
  (`IsIdentifier`) give names of ASCII letters and digits.
* `asciiLower_camelCase`: for them the two casings agree up to the case of letters.
* `propertyName_eq_iff`: when two members get the same property (`SameProperty`), backticks included.

What any name becomes, also beyond ASCII, is left to `Proofs/Naming/ClassName` and `Proofs/Naming/Spelling`.
-/

namespace SmithyKotlin

namespace Text

/-- What holds of all characters of a text is decided character by character, and not by trying all the characters
there are. -/
instance decidableForallMem (p : Char → Prop) [DecidablePred p] (text : List Char) : Decidable (∀ c ∈ text, p c) :=
  List.decidableBAll p text

/-! ## ASCII letters and digits -/

theorem isAlpha_of_isUpper {c : Char} (h : c.isUpper = true) : c.isAlpha = true :=
  (Bool.or_eq_true _ _).mpr (.inl h)

theorem isAlpha_of_isLower {c : Char} (h : c.isLower = true) : c.isAlpha = true :=
  (Bool.or_eq_true _ _).mpr (.inr h)

theorem isAlphanum_of_isAlpha {c : Char} (h : c.isAlpha = true) : c.isAlphanum = true :=
  (Bool.or_eq_true _ _).mpr (.inl h)

theorem isAlphanum_of_isDigit {c : Char} (h : c.isDigit = true) : c.isAlphanum = true :=
  (Bool.or_eq_true _ _).mpr (.inr h)

theorem toNat_lt_of_isAlphanum {c : Char} (h : c.isAlphanum = true) : c.toNat < 128 := by
  -- the last characters of the three ranges
  have hupper (h : c.isUpper = true) : c ≤ 'Z' := (of_decide_eq_true h).2
  have hlower (h : c.isLower = true) : c ≤ 'z' := of_decide_eq_true (Bool.and_elim_right h)
  have hdigit (h : c.isDigit = true) : c ≤ '9' := of_decide_eq_true (Bool.and_elim_right h)
  have hlast : c ≤ 'z' := by
    rcases (Bool.or_eq_true _ _).mp h with h | h
    · rcases (Bool.or_eq_true _ _).mp h with h | h
      · exact (hupper h).trans (by decide)
      · exact hlower h
    · exact (hdigit h).trans (by decide)
  have hcode : c.toNat ≤ 'z'.toNat := hlast
  exact hcode.trans_lt (by decide)

/-- A property of the ASCII characters, gone through by their codes. -/
theorem forall_ascii {P : Char → Prop} (hcodes : ∀ code < 0x80, P (Char.ofNat code)) (c : Char)
    (h : c.toNat < 0x80) : P c := by
  have hcode := hcodes c.toNat h
  rwa [Char.ofNat_toNat] at hcode

theorem casing_of_isAlphanum {c : Char} (h : c.isAlphanum = true) :
    c.toUpper.isAlphanum = true ∧ c.toLower.isAlphanum = true ∧ c.toLower.toLower = c.toLower := by
  have hall : ∀ c : Char, c.toNat < 0x80 → c.isAlphanum = true →
      c.toUpper.isAlphanum = true ∧ c.toLower.isAlphanum = true ∧ c.toLower.toLower = c.toLower :=
    forall_ascii (by decide +kernel)
  exact hall c (toNat_lt_of_isAlphanum h) h

theorem isAlphanum_upper {c d : Char} (hc : c.isAlphanum = true) (hd : d ∈ upper c) :
    d.isAlphanum = true := by
  rw [upper_ascii (toNat_lt_of_isAlphanum hc), List.mem_singleton] at hd
  exact hd ▸ (casing_of_isAlphanum hc).1

theorem isAlphanum_lower {c : Char} (hc : c.isAlphanum = true) : (lower c).isAlphanum = true := by
  rw [lower_ascii (toNat_lt_of_isAlphanum hc)]
  exact (casing_of_isAlphanum hc).2.1

theorem toLower_lower {c : Char} (hc : c.isAlphanum = true) : (lower c).toLower = c.toLower := by
  rw [lower_ascii (toNat_lt_of_isAlphanum hc)]
  exact (casing_of_isAlphanum hc).2.2

end Text

namespace Naming

/-- Letters, digits and underscores of ASCII. -/
def IsIdentifier (name : String) : Prop := ∀ c ∈ name.toList, c.isAlphanum = true ∨ c = '_'

instance (name : String) : Decidable (IsIdentifier name) := List.decidableBAll _ name.toList

/-- Casing brings no character into a name but the upper-case forms of its own. -/
theorem mem_pascal {name : List Char} {c : Char} (h : c ∈ pascal name) :
    ∃ d ∈ name, isSeparator d = false ∧ (c = d ∨ c ∈ Text.upper d) := by
  obtain ⟨piece, hpiece, hc⟩ := List.mem_flatMap.mp h
  have hmem (d) (hd : d ∈ piece) : d ∈ name ∧ isSeparator d = false :=
    ⟨Text.mem_of_mem_pieces hpiece hd, Text.sep_of_mem_pieces hpiece hd⟩
  cases piece with
  | nil => cases hc
  | cons d rest =>
    rcases List.mem_append.mp hc with hc | hc
    · obtain ⟨hd, hsep⟩ := hmem d List.mem_cons_self
      exact ⟨d, hd, hsep, .inr hc⟩
    · obtain ⟨hd, hsep⟩ := hmem c (List.mem_cons_of_mem _ hc)
      exact ⟨c, hd, hsep, .inl rfl⟩

namespace IsIdentifier

variable {name : String} (hname : IsIdentifier name)

include hname

theorem isAlphanum_of_mem_pascal {c : Char} (h : c ∈ pascal name.toList) :
    c.isAlphanum = true := by
  obtain ⟨d, hd, hsep, hc⟩ := mem_pascal h
  have halphanum : d.isAlphanum = true := by
    rcases hname d hd with h | rfl
    · exact h
    · exact absurd hsep (by decide)
  rcases hc with rfl | hc
  · exact halphanum
  · exact Text.isAlphanum_upper halphanum hc

theorem isAlphanum_of_mem_camel {c : Char} (h : c ∈ camel name.toList) : c.isAlphanum = true := by
  rcases List.mem_append.mp h with h | h
  · obtain ⟨d, hd, rfl⟩ := List.mem_map.mp h
    exact Text.isAlphanum_lower (hname.isAlphanum_of_mem_pascal (List.mem_of_mem_take hd))
  · exact hname.isAlphanum_of_mem_pascal (List.mem_of_mem_drop h)

/-- The two casings differ in the case of letters only. -/
theorem asciiLower_camelCase :
    Text.asciiLower (camelCase name) = Text.asciiLower (pascalCase name) := by
  rw [Text.asciiLower, Text.asciiLower, camelCase, pascalCase, String.toList_ofList,
    String.toList_ofList, camel]
  generalize loweredLength _ _ = count
  rw [List.map_append, List.map_map]
  have htake : ((pascal name.toList).take count).map (Char.toLower ∘ Text.lower) =
      ((pascal name.toList).take count).map Char.toLower := by
    refine List.map_congr_left fun c hc => ?_
    exact Text.toLower_lower (hname.isAlphanum_of_mem_pascal (List.mem_of_mem_take hc))
  rw [htake, ← List.map_append, List.take_append_drop]

end IsIdentifier

/-! ## Keywords -/

/-- The name in backticks. -/
def quoted (name : String) : String := "`" ++ name ++ "`"

theorem quoted_inj {a b : String} : quoted a = quoted b ↔ a = b := by
  refine ⟨fun h => ?_, congrArg quoted⟩
  rw [quoted, quoted, ← String.toList_inj] at h
  simpa only [String.toList_append, List.append_cancel_right_eq, List.append_cancel_left_eq,
    String.toList_inj] using h

theorem backtick_mem_quoted (name : String) : '\x60' ∈ (quoted name).toList := by
  rw [quoted, String.append_assoc, String.toList_append]
  exact List.mem_append_left _ (List.mem_singleton.mpr rfl)

theorem escapeIdentifier_of_mem {name : String} (h : name ∈ hardKeywords) :
    escapeIdentifier name = quoted name :=
  if_pos (List.contains_iff_mem.mpr h)

theorem escapeIdentifier_of_not_mem {name : String} (h : name ∉ hardKeywords) :
    escapeIdentifier name = name :=
  if_neg (mt List.contains_iff_mem.mp h)

/-- A keyword in backticks is no keyword. -/
theorem quoted_not_mem_hardKeywords : ∀ keyword ∈ hardKeywords, quoted keyword ∉ hardKeywords := by
  decide +kernel

/-- One name stands for the other one: it is that name, or the keyword that the other one quotes. -/
theorem escapeIdentifier_eq_iff {a b : String} :
    escapeIdentifier a = escapeIdentifier b ↔
      a = b ∨ ∃ keyword ∈ hardKeywords,
        (a = keyword ∧ b = quoted keyword) ∨ (b = keyword ∧ a = quoted keyword) := by
  constructor
  · intro h
    by_cases ha : a ∈ hardKeywords
    · rw [escapeIdentifier_of_mem ha] at h
      by_cases hb : b ∈ hardKeywords
      · rw [escapeIdentifier_of_mem hb, quoted_inj] at h
        exact .inl h
      · rw [escapeIdentifier_of_not_mem hb] at h
        exact .inr ⟨a, ha, .inl ⟨rfl, h.symm⟩⟩
    · rw [escapeIdentifier_of_not_mem ha] at h
      by_cases hb : b ∈ hardKeywords
      · rw [escapeIdentifier_of_mem hb] at h
        exact .inr ⟨b, hb, .inr ⟨rfl, h⟩⟩
      · rw [escapeIdentifier_of_not_mem hb] at h
        exact .inl h
  · intro h
    rcases h with rfl | ⟨keyword, hkeyword, ⟨rfl, rfl⟩ | ⟨rfl, rfl⟩⟩
    · rfl
    · rw [escapeIdentifier_of_mem hkeyword, escapeIdentifier_of_not_mem (quoted_not_mem_hardKeywords _ hkeyword)]
    · rw [escapeIdentifier_of_mem hkeyword, escapeIdentifier_of_not_mem (quoted_not_mem_hardKeywords _ hkeyword)]

/-- Two members get one property name: casing gives them one name, or it gives one of them a keyword and
the other one the same keyword in backticks. -/
def SameProperty (a b : String) : Prop :=
  camelCase a = camelCase b ∨ ∃ keyword ∈ hardKeywords,
    (camelCase a = keyword ∧ camelCase b = quoted keyword) ∨
      (camelCase b = keyword ∧ camelCase a = quoted keyword)

theorem propertyName_eq_iff {a b : String} : propertyName a = propertyName b ↔ SameProperty a b :=
  escapeIdentifier_eq_iff

theorem IsIdentifier.not_quoted {name : String} (hname : IsIdentifier name) (keyword : String) :
    camelCase name ≠ quoted keyword := by
  intro h
  have hmem : '\x60' ∈ camel name.toList := by
    have hlist : (camelCase name).toList = camel name.toList := String.toList_ofList
    rw [← hlist, h]
    exact backtick_mem_quoted keyword
  exact absurd (hname.isAlphanum_of_mem_camel hmem) (by decide)

/-- Identifiers that get one property name are cased alike up to the case of letters. -/
theorem SameProperty.same_pascalCase {a b : String} (ha : IsIdentifier a) (hb : IsIdentifier b)
    (h : SameProperty a b) :
    Text.sameIgnoringAsciiCase (pascalCase a) (pascalCase b) = true := by
  rcases h with h | ⟨keyword, _, ⟨_, h⟩ | ⟨_, h⟩⟩
  · rw [Text.sameIgnoringAsciiCase, beq_iff_eq, ← ha.asciiLower_camelCase,
      ← hb.asciiLower_camelCase, h]
  · exact absurd h (hb.not_quoted keyword)
  · exact absurd h (ha.not_quoted keyword)

end Naming

end SmithyKotlin
