import SmithyKotlin.Proofs.Naming.Spelling

/-!
# Names that Kotlin accepts

* `IdentifierText`, `IsLegal`: an identifier starts with a letter or an underscore, and stands in source as it is
  unless it is a hard keyword; in backticks anything may stand.
* `isLegal_escapeIdentifier_iff`: so an escaped name is legal when it is an identifier.
* `SmithyIdentifier`, `StartsWithLetter`: the name of a shape or member may start with underscores and a digit
  behind them; casing drops the underscores.
* `cased_of_smithyIdentifier`: the cased names of an identifier of the model, and that they are legal exactly when a
  letter comes first behind its underscores (`Cased`).
-/

namespace SmithyKotlin

theorem Text.isAlpha_casing {c : Char} (h : c.isAlphanum = true) : c.toUpper.isUpper = c.isAlpha ∧
    c.toUpper.isAlpha = c.isAlpha ∧ (if isUpper c then lower c else c).isAlpha = c.isAlpha := by
  have hall : ∀ c : Char, c.toNat < 0x80 → c.isAlphanum = true → c.toUpper.isUpper = c.isAlpha ∧
      c.toUpper.isAlpha = c.isAlpha ∧ (if isUpper c then lower c else c).isAlpha = c.isAlpha :=
    forall_ascii (by decide +kernel)
  exact hall c (toNat_lt_of_isAlphanum h) h

namespace Naming

/-! ## Identifiers -/

/-- `[A-Za-z_] [A-Za-z0-9_]*` -/
inductive IdentifierText : List Char → Prop where
  | word {first : Char} {rest : List Char} (hfirst : first.isAlpha = true ∨ first = '_')
      (hrest : ∀ c ∈ rest, c.isAlphanum = true ∨ c = '_') : IdentifierText (first :: rest)

/-- An identifier that needs no backticks. -/
structure IsPlainName (name : String) : Prop where
  identifier : IdentifierText name.toList
  free : name ∉ hardKeywords

/-- The name can stand in source: a plain one, or an identifier in backticks. -/
def IsLegal (name : String) : Prop :=
  IsPlainName name ∨ ∃ inner : String, IdentifierText inner.toList ∧ name = quoted inner

/-- `[A-Za-z] [A-Za-z0-9_]*`, or `'_'+ [A-Za-z0-9] [A-Za-z0-9_]*` -/
inductive SmithyIdentifier : List Char → Prop where
  | letter {first : Char} {rest : List Char} (hfirst : first.isAlpha = true)
      (hrest : ∀ c ∈ rest, c.isAlphanum = true ∨ c = '_') : SmithyIdentifier (first :: rest)
  | marked (n : Nat) {first : Char} {rest : List Char} (hfirst : first.isAlphanum = true)
      (hrest : ∀ c ∈ rest, c.isAlphanum = true ∨ c = '_') :
      SmithyIdentifier (List.replicate (n + 1) '_' ++ first :: rest)

/-- A letter comes first behind the underscores that the name starts with. -/
def StartsWithLetter (name : String) : Prop := (name.toList.dropWhile (· = '_')).head?.any Char.isAlpha = true

instance : DecidablePred StartsWithLetter := fun name =>
  inferInstanceAs (Decidable ((name.toList.dropWhile (· = '_')).head?.any Char.isAlpha = true))

theorem identifierText_cons_iff {c : Char} {rest : List Char}
    (hall : ∀ d ∈ c :: rest, d.isAlphanum = true) : IdentifierText (c :: rest) ↔ c.isAlpha = true := by
  constructor
  · rintro ⟨hfirst, _⟩
    refine hfirst.resolve_right ?_
    rintro rfl
    exact absurd (hall '_' List.mem_cons_self) (by decide)
  · exact fun h => .word (.inl h) fun d hd => .inl (hall d (List.mem_cons_of_mem _ hd))

/-! ## Keywords -/

/-- Keywords are identifiers in small letters. -/
theorem isLower_of_mem_hardKeywords : ∀ keyword ∈ hardKeywords,
    keyword.toList ≠ [] ∧ ∀ c ∈ keyword.toList, c.isLower = true := by
  decide +kernel

theorem identifierText_of_mem_hardKeywords {keyword : String} (h : keyword ∈ hardKeywords) :
    IdentifierText keyword.toList := by
  obtain ⟨hne, hlower⟩ := isLower_of_mem_hardKeywords keyword h
  obtain ⟨c, rest, hlist⟩ := List.exists_cons_of_ne_nil hne
  have halpha (d) (hd : d ∈ c :: rest) : d.isAlpha = true := Text.isAlpha_of_isLower (hlower d (hlist ▸ hd))
  rw [hlist]
  refine .word (.inl (halpha c List.mem_cons_self)) fun d hd => .inl ?_
  exact Text.isAlphanum_of_isAlpha (halpha d (List.mem_cons_of_mem _ hd))

/-- A name without a small letter in front is no keyword. -/
theorem not_mem_hardKeywords {name : String} (hname : ∀ c, name.toList.head? = some c → c.isLower = false) :
    name ∉ hardKeywords := by
  intro hmem
  obtain ⟨hne, hlower⟩ := isLower_of_mem_hardKeywords name hmem
  obtain ⟨c, rest, hlist⟩ := List.exists_cons_of_ne_nil hne
  have hcapital := hname c (by rw [hlist]; rfl)
  rw [hlower c (by rw [hlist]; exact List.mem_cons_self)] at hcapital
  cases hcapital

/-- One keyword starts with `as`, and it has nothing behind that. -/
theorem append_not_mem_hardKeywords {rest : String} (hrest : rest ≠ "") : "as" ++ rest ∉ hardKeywords := by
  have hall : ∀ keyword ∈ hardKeywords, "as".toList.isPrefixOf keyword.toList = true → keyword = "as" := by
    decide +kernel
  intro hmem
  have hprefix : "as".toList <+: ("as" ++ rest).toList := by
    rw [String.toList_append]
    exact List.prefix_append _ _
  exact hrest (String.append_eq_left_iff.mp (hall _ hmem (List.isPrefixOf_iff_prefix.mpr hprefix)))

/-- Letters and digits are legal as they stand, or never. -/
theorem isLegal_iff {name : String} (hname : ∀ c ∈ name.toList, c.isAlphanum = true) :
    IsLegal name ↔ IsPlainName name := by
  constructor
  · rintro (hplain | ⟨inner, _, rfl⟩)
    · exact hplain
    · exact absurd (hname _ (backtick_mem_quoted inner)) (by decide)
  · exact .inl

/-- Escaping makes a name legal when it is an identifier. -/
theorem isLegal_escapeIdentifier_iff {name : String} (hname : ∀ c ∈ name.toList, c.isAlphanum = true) :
    IsLegal (escapeIdentifier name) ↔ IdentifierText name.toList := by
  by_cases hkeyword : name ∈ hardKeywords
  · have hidentifier := identifierText_of_mem_hardKeywords hkeyword
    rw [escapeIdentifier_of_mem hkeyword]
    exact iff_of_true (.inr ⟨name, hidentifier, rfl⟩) hidentifier
  · rw [escapeIdentifier_of_not_mem hkeyword, isLegal_iff hname]
    constructor
    · exact IsPlainName.identifier
    · exact fun h => ⟨h, hkeyword⟩

theorem escapeIdentifier_not_mem_hardKeywords (name : String) : escapeIdentifier name ∉ hardKeywords := by
  by_cases hkeyword : name ∈ hardKeywords
  · rw [escapeIdentifier_of_mem hkeyword]
    exact quoted_not_mem_hardKeywords name hkeyword
  · rw [escapeIdentifier_of_not_mem hkeyword]
    exact hkeyword

example : escapeIdentifier "object" = "\x60object\x60" := by decide +kernel

/-! ## The first character -/

/-- Casing does not see the underscores in front. -/
theorem pascal_dropWhile (name : List Char) : pascal (name.dropWhile (· = '_')) = pascal name := by
  induction name with
  | nil => rfl
  | cons c rest ih =>
    by_cases hc : c = '_'
    · subst hc
      have hpieces : pascal ('_' :: rest) = pascal rest := by
        rw [pascal, Text.pieces, if_pos (by decide), List.flatMap_cons]
        rfl
      rw [List.dropWhile_cons_of_pos (by decide), ih, hpieces]
    · rw [List.dropWhile_cons_of_neg (by simpa using hc)]

theorem exists_pascal_cons {first : Char} (rest : List Char) (hfirst : first.isAlphanum = true) :
    ∃ others, pascal (first :: rest) = first.toUpper :: others := by
  have hsep : isSeparator first = false := isSeparator_eq_false Char.isAlphanum rfl rfl rfl hfirst
  have hupper := Text.upper_ascii (Text.toNat_lt_of_isAlphanum hfirst)
  rw [pascal, Text.pieces, if_neg (ne_true_of_eq_false hsep)]
  split
  · rw [List.flatMap_cons, capitalized, hupper]
    exact ⟨_, rfl⟩
  · rw [List.flatMap_cons, capitalized, hupper]
    exact ⟨_, rfl⟩

/-- The first letter becomes small when it is a capital. -/
theorem exists_decapitalized_cons (c : Char) (rest : List Char) :
    ∃ others, decapitalized (c :: rest) = (if Text.isUpper c then Text.lower c else c) :: others := by
  split
  · rename_i hc
    exact ⟨_, decapitalized_cons hc rest⟩
  · rename_i hc
    exact ⟨_, decapitalized_cons_of_not_isUpper hc rest⟩

/-! ## Names from the model -/

section SmithyIdentifier

variable {text : List Char}

theorem SmithyIdentifier.mem (h : SmithyIdentifier text) : ∀ c ∈ text, c.isAlphanum = true ∨ c = '_' := by
  cases h with
  | letter hfirst hrest =>
    exact List.forall_mem_cons.mpr ⟨.inl (Text.isAlphanum_of_isAlpha hfirst), hrest⟩
  | marked n hfirst hrest =>
    intro c hc
    rcases List.mem_append.mp hc with hc | hc
    · exact .inr (List.eq_of_mem_replicate hc)
    · exact List.forall_mem_cons.mpr ⟨.inl hfirst, hrest⟩ c hc

/-- Behind the underscores there is a letter or digit, and without underscores it is a letter. -/
theorem SmithyIdentifier.exists_first (h : SmithyIdentifier text) :
    ∃ first rest, text.dropWhile (· = '_') = first :: rest ∧ first.isAlphanum = true ∧
      (first.isAlpha || text.head? = some '_') = true := by
  have hstop {first : Char} {rest : List Char} (h : first.isAlphanum = true) :
      (first :: rest).dropWhile (· = '_') = first :: rest := by
    refine List.dropWhile_cons_of_neg ?_
    rw [decide_eq_true_eq]
    rintro rfl
    exact absurd h (by decide)
  cases h with
  | @letter first rest hfirst hrest =>
    have halphanum := Text.isAlphanum_of_isAlpha hfirst
    exact ⟨first, rest, hstop halphanum, halphanum, by rw [hfirst, Bool.true_or]⟩
  | @marked n first rest hfirst hrest =>
    refine ⟨first, rest, ?_, hfirst, ?_⟩
    · rw [List.dropWhile_append_of_pos, hstop hfirst]
      intro c hc
      exact decide_eq_true (List.eq_of_mem_replicate hc)
    · rw [List.replicate_succ, List.cons_append, List.head?_cons, decide_eq_true rfl, Bool.or_true]

theorem smithyIdentifier_iff : SmithyIdentifier text ↔
    (∀ c ∈ text, c.isAlphanum = true ∨ c = '_') ∧
      (text.dropWhile (· = '_')).head?.any (fun first => first.isAlpha || text.head? = some '_') = true := by
  constructor
  · intro h
    obtain ⟨first, rest, hdrop, _, hfirst⟩ := h.exists_first
    rw [hdrop]
    exact ⟨h.mem, hfirst⟩
  · rintro ⟨hall, hfirst⟩
    obtain ⟨first, hhead, hkind⟩ := (Option.any_eq_true _ _).mp hfirst
    obtain ⟨rest, hdrop⟩ := List.head?_eq_some_iff.mp hhead
    have hne : first ≠ '_' := by
      have hstop := List.head?_dropWhile_not (fun c => decide (c = '_')) text
      rw [hdrop] at hstop
      exact of_decide_eq_false hstop
    have hsplit := List.takeWhile_append_dropWhile (p := fun c => decide (c = '_')) (l := text)
    have hmarks := List.eq_replicate_of_mem (a := '_') fun c hc =>
      of_decide_eq_true (List.mem_takeWhile_imp (p := fun c => decide (c = '_')) (l := text) hc)
    rw [hdrop, hmarks] at hsplit
    have hmem (c) (hc : c ∈ first :: rest) : c.isAlphanum = true ∨ c = '_' :=
      hall c (hsplit ▸ List.mem_append_right _ hc)
    have hrest (c) (hc : c ∈ rest) := hmem c (List.mem_cons_of_mem _ hc)
    generalize (text.takeWhile fun c => decide (c = '_')).length = n at hsplit
    subst hsplit
    cases n with
    | zero =>
      rw [Bool.or_eq_true, decide_eq_true_eq] at hkind
      exact .letter (hkind.resolve_right fun h => hne (Option.some.inj h)) hrest
    | succ n => exact .marked n ((hmem first List.mem_cons_self).resolve_right hne) hrest

instance : DecidablePred SmithyIdentifier := fun _ => decidable_of_iff _ smithyIdentifier_iff.symm

end SmithyIdentifier

section Cased

variable {name : String} (hname : SmithyIdentifier name.toList)

include hname

/-- The cased names start with a letter when the name does behind its underscores. -/
theorem SmithyIdentifier.exists_cased : ∃ first others rest,
    (pascalCase name).toList = first :: others ∧
      (camelCase name).toList = (if Text.isUpper first then Text.lower first else first) :: rest ∧
      first.isAlphanum = true ∧ (first.isUpper = true ↔ StartsWithLetter name) ∧
      (first.isAlpha = true ↔ StartsWithLetter name) := by
  obtain ⟨first, behind, hdrop, hfirst, _⟩ := hname.exists_first
  obtain ⟨others, hpascal⟩ := exists_pascal_cons behind hfirst
  rw [← hdrop, pascal_dropWhile] at hpascal
  obtain ⟨rest, hcamel⟩ := exists_decapitalized_cons first.toUpper others
  obtain ⟨hupper, halpha, _⟩ := Text.isAlpha_casing hfirst
  have hstarts : StartsWithLetter name ↔ first.isAlpha = true := by
    rw [StartsWithLetter, hdrop]
    rfl
  refine ⟨first.toUpper, others, rest, ?_, ?_, (Text.casing_of_isAlphanum hfirst).1, ?_, ?_⟩
  · rw [pascalCase, String.toList_ofList, hpascal]
  · rw [camelCase, String.toList_ofList, camel_eq, hpascal, hcamel]
  · rw [hupper, hstarts]
  · rw [halpha, hstarts]

end Cased

/-- What casing makes of a name of a shape or member. -/
structure Cased (name : String) : Prop where
  nonempty : pascalCase name ≠ ""
  characters : ∀ c ∈ (pascalCase name).toList, c.isAlphanum = true
  capital : (pascalCase name).toList.head?.any Char.isUpper = true ↔ StartsWithLetter name
  type : IsLegal (pascalCase name) ↔ StartsWithLetter name
  property : IsLegal (propertyName name) ↔ StartsWithLetter name
  escaped : propertyName name ∉ hardKeywords
  /-- Accessors start with letters of their own. -/
  accessors : IsLegal (assertAccessor (pascalCase name)) ∧ IsLegal (optionalAccessor (pascalCase name))

theorem isLegal_accessor {rest : String} (hne : rest ≠ "") (hrest : ∀ c ∈ rest.toList, c.isAlphanum = true) :
    IsLegal ("as" ++ rest) := by
  refine .inl ⟨?_, append_not_mem_hardKeywords hne⟩
  rw [String.toList_append]
  refine .word (.inl (by decide)) fun c hc => .inl ?_
  rcases List.mem_cons.mp hc with rfl | hc
  · decide
  · exact hrest c hc

theorem cased_of_smithyIdentifier {name : String} (hname : SmithyIdentifier name.toList) : Cased name := by
  have hidentifier : IsIdentifier name := hname.mem
  obtain ⟨first, others, rest, hpascal, hcamel, hfirst, hcapital, hletter⟩ := hname.exists_cased
  have hcharacters : ∀ c ∈ (pascalCase name).toList, c.isAlphanum = true := by
    intro c hc
    rw [pascalCase, String.toList_ofList] at hc
    exact hidentifier.isAlphanum_of_mem_pascal hc
  have hsmall : ∀ c ∈ (camelCase name).toList, c.isAlphanum = true := by
    intro c hc
    rw [camelCase, String.toList_ofList] at hc
    exact hidentifier.isAlphanum_of_mem_camel hc
  have hnonempty : pascalCase name ≠ "" := by
    rw [Ne, ← String.toList_eq_nil_iff, hpascal]
    exact List.cons_ne_nil _ _
  have hfree : pascalCase name ∉ hardKeywords := by
    refine not_mem_hardKeywords fun c hc => ?_
    rw [pascalCase, String.toList_ofList] at hc
    exact isLower_of_head?_pascal hc
  refine ⟨hnonempty, hcharacters, ?_, ?_, ?_, escapeIdentifier_not_mem_hardKeywords _, ?_, ?_⟩
  · rw [hpascal]
    exact hcapital
  · rw [isLegal_iff hcharacters, ← hletter]
    have hidentifierText := hpascal ▸ identifierText_cons_iff (hpascal ▸ hcharacters)
    constructor
    · exact fun h => hidentifierText.mp h.identifier
    · exact fun h => ⟨hidentifierText.mpr h, hfree⟩
  · rw [propertyName, isLegal_escapeIdentifier_iff hsmall, hcamel, identifierText_cons_iff (hcamel ▸ hsmall),
      (Text.isAlpha_casing hfirst).2.2, hletter]
  · exact isLegal_accessor hnonempty hcharacters
  · rw [optionalAccessor, String.append_assoc]
    refine isLegal_accessor ?_ fun c hc => ?_
    · rw [Ne, ← String.toList_eq_nil_iff, String.toList_append]
      exact List.append_ne_nil_of_right_ne_nil _ (by decide)
    · rw [String.toList_append] at hc
      rcases List.mem_append.mp hc with hc | hc
      · exact hcharacters c hc
      · have hall : ∀ c ∈ "OrNull".toList, c.isAlphanum = true := by
          decide
        exact hall c hc

end Naming

end SmithyKotlin
