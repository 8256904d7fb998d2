import SmithyKotlin.Proofs.Naming.Spelling

/-!
# Names that casing keeps

A property is called like its member where casing keeps the name of the member.

* `camelCase_camelCase`: it keeps every name that it gave itself.
* `KeepsCapitals`: what else a name in camel case (`IsCamelCase`) needs.  The first letter is made a capital on the
  way, and where capitals follow, it becomes small again together with them, as if all of them were one word.
* `camelCase_eq_self_iff`: casing keeps just these, and so does the name of the property but for backticks.

Names with characters beyond ASCII are no names in camel case here.
-/

namespace SmithyKotlin

/-- The small form of a capital is a small letter. -/
theorem Text.isLower_lower {c : Char} (hc : c.isAlphanum = true) (hupper : isUpper c = true) :
    (lower c).isLower = true := by
  have hall : ∀ c : Char, c.toNat < 0x80 → isUpper c = true → (lower c).isLower = true :=
    forall_ascii (by decide +kernel)
  exact hall c (toNat_lt_of_isAlphanum hc) hupper

/-- Only small letters have another character as their upper-case form. -/
theorem Text.toUpper_of_not_isLower {c : Char} (hc : c.isLower = false) : c.toUpper = c := by
  refine dif_neg fun hsmall => ?_
  have hlower : c.isLower = true := isLower_iff.mpr hsmall
  rw [hc] at hlower
  cases hlower

namespace Naming

/-! ## Behind the first letter -/

/-- If anything becomes small with the first letter, the character behind it does. -/
theorem exists_behindFirst_cons {rest : List Char} (h : joinedLength rest ≠ 0) :
    ∃ c others behind, rest = c :: others ∧ Text.isUpper c = true ∧ behindFirst rest = Text.lower c :: behind := by
  obtain ⟨n, hn⟩ := Nat.exists_eq_succ_of_ne_zero h
  rw [Ne, joinedLength_eq_zero_iff, Classical.not_imp] at h
  cases rest with
  | nil => cases h.1
  | cons c others =>
    rw [behindFirst, hn, List.take_succ_cons]
    exact ⟨c, others, _, rfl, h.1, rfl⟩

section Alphanum

variable {c : Char} {rest : List Char} (hrest : ∀ d ∈ rest, d.isAlphanum = true)

include hrest

theorem isLower_head?_behindFirst (h : joinedLength rest ≠ 0) :
    ∀ d, (behindFirst rest).head? = some d → d.isLower = true := by
  obtain ⟨first, others, behind, rfl, hupper, hbehind⟩ := exists_behindFirst_cons h
  rw [hbehind, List.head?_cons]
  rintro _ ⟨rfl⟩
  exact Text.isLower_lower (hrest first List.mem_cons_self) hupper

theorem behindFirst_eq_self_iff : behindFirst rest = rest ↔ joinedLength rest = 0 := by
  refine ⟨fun hsame => ?_, behindFirst_of_joinedLength⟩
  by_contra hjoined
  have hlower := isLower_head?_behindFirst hrest hjoined
  obtain ⟨first, others, behind, rfl, hupper, _⟩ := exists_behindFirst_cons hjoined
  rw [hsame] at hlower
  rw [Text.isUpper_of_isLower (hlower first rfl)] at hupper
  cases hupper

theorem behindFirst_behindFirst : behindFirst (behindFirst rest) = behindFirst rest := by
  by_cases hjoined : joinedLength rest = 0
  · rw [behindFirst_of_joinedLength hjoined, behindFirst_of_joinedLength hjoined]
  · exact behindFirst_of_isLower (isLower_head?_behindFirst hrest hjoined)

theorem pascal_of_isAlphanum (hc : c.isAlphanum = true) : pascal (c :: rest) = c.toUpper :: rest := by
  have hall : ∀ d ∈ c :: rest, d.isAlphanum = true := List.forall_mem_cons.mpr ⟨hc, hrest⟩
  have hsep (d) (hd : d ∈ c :: rest) : isSeparator d = false :=
    isSeparator_eq_false Char.isAlphanum rfl rfl rfl (hall d hd)
  rw [pascal_of_word hsep, Text.upper_ascii (Text.toNat_lt_of_isAlphanum hc)]
  rfl

/-- A small first letter stays, and the capitals behind it may become small. -/
theorem camel_of_isLower (hc : c.isLower = true) : camel (c :: rest) = c :: behindFirst rest := by
  obtain ⟨hupper, hlower⟩ := Text.toUpper_of_isLower hc
  rw [camel_eq, pascal_of_isAlphanum hrest (Text.isAlphanum_of_isAlpha (Text.isAlpha_of_isLower hc)),
    decapitalized_cons hupper, hlower]

end Alphanum

/-- Casing keeps every name that it gave. -/
theorem camelCase_camelCase {name : String} (hname : IsIdentifier name) :
    camelCase (camelCase name) = camelCase name := by
  have hcharacters (c) (hc : c ∈ pascal name.toList) := hname.isAlphanum_of_mem_pascal hc
  have hcased (c) (hc : c ∈ camel name.toList) := hname.isAlphanum_of_mem_camel hc
  have hhead (c) (hc : (pascal name.toList).head? = some c) := isLower_of_head?_pascal hc
  rw [camelCase, camelCase, String.toList_ofList, String.ofList_inj]
  rw [camel_eq name.toList] at hcased ⊢
  cases hjoined : pascal name.toList with
  | nil => rfl
  | cons c rest =>
    rw [hjoined] at hcharacters hcased hhead
    obtain ⟨hc, hrest⟩ := List.forall_mem_cons.mp hcharacters
    by_cases hupper : Text.isUpper c = true
    · rw [decapitalized_cons hupper] at hcased ⊢
      rw [camel_of_isLower (List.forall_mem_cons.mp hcased).2 (Text.isLower_lower hc hupper),
        behindFirst_behindFirst hrest]
    · rw [decapitalized_cons_of_not_isUpper hupper, camel_eq, pascal_of_isAlphanum hrest hc,
        Text.toUpper_of_not_isLower (hhead c rfl), decapitalized_cons_of_not_isUpper hupper]

/-! ## Names of members -/

/-- A name of ASCII letters and digits with a small letter in front. -/
structure IsCamelCase (name : String) : Prop where
  first : name.toList.head?.any Char.isLower = true
  characters : ∀ c ∈ name.toList, c.isAlphanum = true

/-- If the second character is a capital, a third one stands behind it that is none. -/
def KeepsCapitals (name : String) : Prop :=
  name.toList[1]?.any Text.isUpper = true → name.toList[2]?.any (fun c => !Text.isUpper c) = true

instance : DecidablePred KeepsCapitals := fun name =>
  inferInstanceAs (Decidable (name.toList[1]?.any Text.isUpper = true →
    name.toList[2]?.any (fun c => !Text.isUpper c) = true))

namespace IsCamelCase

variable {name : String} (hname : IsCamelCase name)

include hname

theorem isIdentifier : IsIdentifier name := fun c hc => .inl (hname.characters c hc)

theorem keeps_iff : camelCase name = name ↔ KeepsCapitals name := by
  obtain ⟨c, hhead, hc⟩ := (Option.any_eq_true _ _).mp hname.first
  obtain ⟨rest, hlist⟩ := List.head?_eq_some_iff.mp hhead
  have hrest : ∀ d ∈ rest, d.isAlphanum = true := fun d hd =>
    hname.characters d (hlist ▸ List.mem_cons_of_mem _ hd)
  have hcamel : (camelCase name).toList = c :: behindFirst rest := by
    rw [camelCase, String.toList_ofList, hlist, camel_of_isLower hrest hc]
  rw [← String.toList_inj, hcamel, hlist, List.cons_inj_right, behindFirst_eq_self_iff hrest,
    joinedLength_eq_zero_iff, KeepsCapitals, hlist]
  rfl

/-- The property has the name of the member when casing keeps that. -/
theorem propertyName_iff : propertyName name = escapeIdentifier name ↔ camelCase name = name := by
  refine ⟨fun h => ?_, congrArg escapeIdentifier⟩
  obtain h | ⟨keyword, _, ⟨_, h⟩ | ⟨_, h⟩⟩ := escapeIdentifier_eq_iff.mp h
  · exact h
  · exact absurd (hname.characters _ (h ▸ backtick_mem_quoted keyword)) (by decide)
  · exact absurd h (hname.isIdentifier.not_quoted keyword)

end IsCamelCase

/-- Casing keeps the name of a member that follows the convention for properties just when no capital behind the first
letter is taken for a part of the same word.  What it makes of the other names it keeps. -/
theorem camelCase_eq_self_iff {name : String} (hname : IsCamelCase name) :
    (camelCase name = name ↔ KeepsCapitals name) ∧
      (propertyName name = escapeIdentifier name ↔ KeepsCapitals name) ∧
      camelCase (camelCase name) = camelCase name :=
  ⟨hname.keeps_iff, hname.propertyName_iff.trans hname.keeps_iff, camelCase_camelCase hname.isIdentifier⟩

theorem camelCase_eq_self_iff_eTag :
    IsCamelCase "eTag" ∧ camelCase "eTag" = "eTag" ∧ propertyName "eTag" = escapeIdentifier "eTag" := by
  have hname : IsCamelCase "eTag" := ⟨by decide, by decide⟩
  have hcapitals : KeepsCapitals "eTag" := by
    decide
  obtain ⟨hkeeps, hproperty, _⟩ := camelCase_eq_self_iff hname
  exact ⟨hname, hkeeps.mpr hcapitals, hproperty.mpr hcapitals⟩

/-- A name whose capitals are taken for one word with the letter in front of them. -/
theorem not_keeps_iOS : IsCamelCase "iOS" ∧ camelCase "iOS" = "ios" ∧ "ios" ≠ "iOS" :=
  ⟨⟨by decide, by decide⟩, by decide +kernel, by decide⟩

example : camelCase "vCPUCount" = "vcpuCount" := by decide +kernel

end Naming

end SmithyKotlin
