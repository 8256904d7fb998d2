import Mathlib.Data.List.TakeWhile
import SmithyKotlin.Proofs.Naming.ClassName

/-!
# Names that become a given property

Casing makes the first word of a name small, where a run of capitals counts as one word (`decapitalized`,
`joinedLength`).

* `camelCase_eq_iff`: so a word of small letters is the name of a property in two ways: the cased name is the word
  with one capital (`HasOneCapital`), or it is in capitals throughout.
* `camelCase_eq_asciiLower_iff`: what that means for the name of a member.

Two letters beyond ASCII have an ASCII letter as their small form, the `I` with a dot and the sign of the kelvin;
words with an `i` or a `k` are left out for their sake.
-/

namespace SmithyKotlin

namespace Text

/-! ## Small letters -/

theorem isLower_iff {c : Char} : c.isLower = true ↔ 0x61 ≤ c.toNat ∧ c.toNat ≤ 0x7a := by
  have hrange : c.isLower = (decide (c.val ≥ 'a'.val) && decide (c.val ≤ 'z'.val)) := rfl
  rw [hrange, Bool.and_eq_true, decide_eq_true_eq, decide_eq_true_eq]
  exact Iff.rfl

theorem ascii_of_isLower {c : Char} (h : c.isLower = true) : c.toNat < 0x80 := by
  have hrange := isLower_iff.mp h
  omega

/-- Casing among the ASCII characters. -/
structure AsciiCasing (c : Char) : Prop where
  /-- The capital of a small letter is one, and the letter is its small form. -/
  small : c.isLower = true → isUpper c = false ∧ isUpper c.toUpper = true ∧ lower c.toUpper = c
  /-- Upper-case forms are no small letters. -/
  upper : c.toUpper.isLower = false
  capital : isUpper c = true → c = (lower c).toUpper
  /-- A letter is the small form of itself and of its capital only. -/
  letter : c.toLower.isLower = true →
    c.toUpper = c.toLower.toUpper ∧ (c = c.toLower ∨ c = c.toLower.toUpper)

theorem asciiCasing (c : Char) (h : c.toNat < 0x80) : AsciiCasing c := by
  have hall : ∀ c : Char, c.toNat < 0x80 →
      (c.isLower = true → isUpper c = false ∧ isUpper c.toUpper = true ∧ lower c.toUpper = c) ∧
        c.toUpper.isLower = false ∧ (isUpper c = true → c = (lower c).toUpper) ∧
        (c.toLower.isLower = true →
          c.toUpper = c.toLower.toUpper ∧ (c = c.toLower ∨ c = c.toLower.toUpper)) :=
    forall_ascii (by decide +kernel)
  obtain ⟨hsmall, hupper, hcapital, hletter⟩ := hall c h
  exact ⟨hsmall, hupper, hcapital, hletter⟩

theorem isUpper_of_isLower {c : Char} (h : c.isLower = true) : isUpper c = false :=
  ((asciiCasing c (ascii_of_isLower h)).small h).1

theorem toUpper_of_isLower {c : Char} (h : c.isLower = true) :
    isUpper c.toUpper = true ∧ lower c.toUpper = c :=
  ((asciiCasing c (ascii_of_isLower h)).small h).2

/-- Few letters have a capital among the ASCII characters, and none of these is a small letter. -/
theorem upperTables_ascii :
    (∀ run ∈ upperRuns, 0x7b ≤ (run.first : Int) + run.shift ∨ (run.last : Int) + run.shift < 0x61) ∧
      ∀ entry ∈ upperSequences, ∀ code ∈ entry.2, (Char.ofNat code).isLower = false := by
  decide +kernel

theorem isLower_ofNat {code : Nat} (h : code < 0x61 ∨ 0x7b ≤ code) : (Char.ofNat code).isLower = false := by
  rw [← Bool.not_eq_true]
  intro hlower
  have hzero : Char.ofNat code ≠ '\x00' := by
    intro heq
    rw [heq] at hlower
    exact absurd hlower (by decide)
  have hrange := isLower_iff.mp hlower
  exact ofNat_ne hzero (by omega) rfl

/-- Upper-case forms have no small ASCII letters. -/
theorem isLower_of_mem_upper {c d : Char} (hmem : d ∈ upper c) : d.isLower = false := by
  by_cases hascii : c.toNat < 0x80
  · rw [upper_ascii hascii, List.mem_singleton] at hmem
    exact hmem ▸ (asciiCasing c hascii).upper
  · rw [upper, if_neg hascii] at hmem
    split at hmem
    · rename_i codes hlookup
      obtain ⟨before, behind, hentry, _⟩ := List.lookup_eq_some_iff.mp hlookup
      obtain ⟨code, hcode, rfl⟩ := List.mem_map.mp hmem
      exact upperTables_ascii.2 _ (hentry ▸ List.mem_append_right _ List.mem_cons_self) code hcode
    · rw [List.mem_singleton] at hmem
      cases hshift : shiftIn upperRuns c with
      | none =>
        rw [hshift, Option.getD_none] at hmem
        rw [hmem, ← Bool.not_eq_true]
        exact fun hlower => hascii (ascii_of_isLower hlower)
      | some capital =>
        rw [hshift, Option.getD_some] at hmem
        obtain ⟨run, hfind, rfl⟩ := Option.map_eq_some_iff.mp hshift
        have hbound := upperTables_ascii.1 run (List.mem_of_find?_eq_some hfind)
        have hholds := List.find?_some hfind
        rw [CodeRun.holds, Bool.and_eq_true, Bool.and_eq_true, decide_eq_true_eq, decide_eq_true_eq]
          at hholds
        exact hmem ▸ isLower_ofNat (by omega)

/-- The small letters of ASCII that are the small form of their own capital only. -/
def HasOneCapital (c : Char) : Prop := c.isLower = true ∧ c ≠ 'i' ∧ c ≠ 'k'

theorem lowerRuns_ascii : ∀ run ∈ lowerRuns, 0x7b ≤ (run.first : Int) + run.shift ∨
    run.first = run.last ∧ ((run.first : Int) + run.shift = 0x69 ∨ (run.first : Int) + run.shift = 0x6b) := by
  decide +kernel

theorem HasOneCapital.ascii_of_lower {c d : Char} (hc : HasOneCapital c) (hlower : lower d = c) :
    d.toNat < 0x80 := by
  obtain ⟨hsmall, hi, hk⟩ := hc
  by_contra hascii
  rw [lower, if_neg hascii] at hlower
  cases hshift : shiftIn lowerRuns d with
  | none =>
    rw [hshift, Option.getD_none] at hlower
    exact hascii (ascii_of_isLower (hlower ▸ hsmall))
  | some small =>
    rw [hshift, Option.getD_some] at hlower
    obtain ⟨run, hfind, rfl⟩ := Option.map_eq_some_iff.mp hshift
    have hholds := List.find?_some hfind
    rw [CodeRun.holds, Bool.and_eq_true, Bool.and_eq_true, decide_eq_true_eq, decide_eq_true_eq] at hholds
    rcases lowerRuns_ascii run (List.mem_of_find?_eq_some hfind) with hfar | ⟨hsingle, hcode | hcode⟩
    · rw [← hlower, isLower_ofNat (by omega)] at hsmall
      cases hsmall
    · rw [show ((d.toNat : Int) + run.shift).toNat = 0x69 by omega] at hlower
      exact hi hlower.symm
    · rw [show ((d.toNat : Int) + run.shift).toNat = 0x6b by omega] at hlower
      exact hk hlower.symm

theorem HasOneCapital.eq_toUpper {c d : Char} (hc : HasOneCapital c) (hupper : isUpper d = true)
    (hlower : lower d = c) : d = c.toUpper :=
  hlower ▸ (asciiCasing d (hc.ascii_of_lower hlower)).capital hupper

end Text

namespace Naming

/-! ## The first word -/

/-- A cased name with its first word in small letters. -/
def decapitalized (joined : List Char) : List Char :=
  let count := loweredLength (joined.takeWhile Text.isUpper).length joined.length
  (joined.take count).map Text.lower ++ joined.drop count

theorem camel_eq (name : List Char) : camel name = decapitalized (pascal name) := rfl

/-- Casing leaves no small ASCII letter in front. -/
theorem isLower_of_head?_pascal {name : List Char} {c : Char} (h : (pascal name).head? = some c) :
    c.isLower = false := by
  rw [pascal, List.head?_flatMap] at h
  obtain ⟨word, _, hword⟩ := List.exists_of_findSome?_eq_some h
  cases word with
  | nil => cases hword
  | cons first rest =>
    rw [capitalized, List.head?_append_of_ne_nil _ (Text.upper_ne_nil first)] at hword
    exact Text.isLower_of_mem_upper (List.mem_of_mem_head? hword)

/-- How many characters become small together with the capital in front of them. -/
def joinedLength (rest : List Char) : Nat :=
  let run := (rest.takeWhile Text.isUpper).length
  if run = rest.length then run else run - 1

/-- What stands behind the first character when that has become small. -/
def behindFirst (rest : List Char) : List Char :=
  (rest.take (joinedLength rest)).map Text.lower ++ rest.drop (joinedLength rest)

theorem decapitalized_cons {c : Char} (hc : Text.isUpper c = true) (rest : List Char) :
    decapitalized (c :: rest) = Text.lower c :: behindFirst rest := by
  have hcount (run length : Nat) : loweredLength (run + 1) (length + 1) =
      (if run = length then run else run - 1) + 1 := by
    rw [loweredLength]
    split_ifs <;> omega
  rw [decapitalized, List.takeWhile_cons_of_pos hc, List.length_cons, List.length_cons, hcount,
    List.take_succ_cons, List.drop_succ_cons]
  rfl

theorem decapitalized_cons_of_not_isUpper {c : Char} (hc : ¬ Text.isUpper c = true) (rest : List Char) :
    decapitalized (c :: rest) = c :: rest := by
  have hcount : loweredLength ([] : List Char).length (c :: rest).length = 0 := by
    rw [loweredLength]
    split <;> rfl
  rw [decapitalized, List.takeWhile_cons_of_neg hc, hcount]
  rfl

theorem behindFirst_of_joinedLength {rest : List Char} (h : joinedLength rest = 0) : behindFirst rest = rest := by
  rw [behindFirst, h, List.take_zero, List.drop_zero]
  rfl

/-- Nothing becomes small with the capital unless another one stands behind it, which is the last character or has a
capital behind it itself. -/
theorem joinedLength_eq_zero_iff (rest : List Char) : joinedLength rest = 0 ↔
    (rest[0]?.any Text.isUpper = true → rest[1]?.any (fun c => !Text.isUpper c) = true) := by
  match rest with
  | [] => simp [joinedLength]
  | [c] =>
    by_cases hc : Text.isUpper c = true
    · simp [joinedLength, hc]
    · simp [joinedLength, hc]
  | c :: d :: others =>
    by_cases hc : Text.isUpper c = true
    · by_cases hd : Text.isUpper d = true
      · have hlong : joinedLength (c :: d :: others) ≠ 0 := by
          rw [joinedLength, List.takeWhile_cons_of_pos hc, List.takeWhile_cons_of_pos hd]
          split_ifs <;> simp
        simp [hlong, hc, hd]
      · simp [joinedLength, hc, hd]
    · simp [joinedLength, hc]

/-- A small letter behind the capital stays as it is, and so does everything behind it. -/
theorem behindFirst_of_isLower {rest : List Char} (h : ∀ c, rest.head? = some c → c.isLower = true) :
    behindFirst rest = rest := by
  refine behindFirst_of_joinedLength ((joinedLength_eq_zero_iff rest).mpr fun hcapital => ?_)
  obtain ⟨c, hhead, hc⟩ := (Option.any_eq_true _ _).mp hcapital
  rw [← List.head?_eq_getElem?] at hhead
  rw [Text.isUpper_of_isLower (h c hhead)] at hc
  cases hc

theorem decapitalized_capital {c : Char} {rest : List Char} (hc : c.isLower = true)
    (hrest : ∀ d ∈ rest, d.isLower = true) : decapitalized (c.toUpper :: rest) = c :: rest := by
  obtain ⟨hupper, hlower⟩ := Text.toUpper_of_isLower hc
  rw [decapitalized_cons hupper, hlower, behindFirst_of_isLower fun d hd => hrest d (List.mem_of_mem_head? hd)]

theorem decapitalized_capitals {word : List Char} (hword : ∀ c ∈ word, c.isLower = true) :
    decapitalized (word.map Char.toUpper) = word := by
  have hrun : (word.map Char.toUpper).takeWhile Text.isUpper = word.map Char.toUpper := by
    rw [List.takeWhile_eq_self_iff, List.forall_mem_map]
    exact fun c hc => (Text.toUpper_of_isLower (hword c hc)).1
  have hlower : (word.map Char.toUpper).map Text.lower = word := by
    rw [List.map_map]
    exact (List.map_congr_left fun c hc => (Text.toUpper_of_isLower (hword c hc)).2).trans (List.map_id' word)
  rw [decapitalized, hrun, loweredLength, if_pos rfl, List.take_length, List.drop_length, hlower,
    List.append_nil]

/-- The cased names that become the word. -/
theorem eq_of_decapitalized {joined rest : List Char} {c : Char}
    (hplain : ∀ d ∈ c :: rest, Text.HasOneCapital d) (hhead : ∀ d, joined.head? = some d → d.isLower = false)
    (h : decapitalized joined = c :: rest) :
    joined = c.toUpper :: rest ∨ joined = (c :: rest).map Char.toUpper := by
  have hprefix := List.takeWhile_prefix (l := joined) Text.isUpper
  have hupper (d) (hd : d ∈ joined.takeWhile Text.isUpper) := List.mem_takeWhile_imp hd
  have hjoined := (List.takeWhile_append_dropWhile (p := Text.isUpper) (l := joined)).symm
  rw [decapitalized, loweredLength] at h
  generalize joined.takeWhile Text.isUpper = run at h hprefix hupper hjoined
  split at h
  · -- the whole name is in capitals
    rename_i hwhole
    obtain rfl := hprefix.eq_of_length hwhole
    rw [hwhole, List.take_length, List.drop_length, List.append_nil] at h
    have hcapital (d) (hd : d ∈ run) : (Text.lower d).toUpper = d :=
      ((hplain _ (h ▸ List.mem_map_of_mem hd)).eq_toUpper (hupper d hd) rfl).symm
    right
    rw [← h, List.map_map]
    exact ((List.map_congr_left hcapital).trans (List.map_id' run)).symm
  · split at h
    · rename_i hshort
      match run, hshort with
      | [], _ =>
        have hsmall := (hplain c List.mem_cons_self).1
        rw [hhead c (congrArg List.head? h)] at hsmall
        cases hsmall
      | [d], _ =>
        rw [hjoined] at h ⊢
        obtain ⟨hlower, rfl⟩ := List.cons.inj h
        rw [(hplain c List.mem_cons_self).eq_toUpper (hupper d List.mem_cons_self) hlower]
        exact .inl rfl
    · -- the last capital of the run would stay as it is
      rename_i hlong
      have hlast : run.length - 1 < run.length := by
        omega
      rw [hjoined, List.drop_append_of_le_length hlast.le, List.drop_eq_getElem_cons hlast] at h
      have hmem : run[run.length - 1] ∈ c :: rest :=
        h ▸ List.mem_append_right _ List.mem_cons_self
      have hcapital := hupper _ (List.getElem_mem hlast)
      rw [Text.isUpper_of_isLower (hplain _ hmem).1] at hcapital
      cases hcapital

/-- The names whose property is called like the word. -/
theorem camelCase_eq_iff {name : String} {c : Char} {rest : List Char}
    (hplain : ∀ d ∈ c :: rest, Text.HasOneCapital d) :
    camelCase name = String.ofList (c :: rest) ↔
      pascalCase name = String.ofList (c.toUpper :: rest) ∨
        pascalCase name = String.ofList ((c :: rest).map Char.toUpper) := by
  have hsmall (d) (hd : d ∈ c :: rest) : d.isLower = true := (hplain d hd).1
  rw [camelCase, camel_eq, pascalCase, String.ofList_inj, String.ofList_inj, String.ofList_inj]
  constructor
  · exact eq_of_decapitalized hplain fun d => isLower_of_head?_pascal
  · rintro (h | h)
    · rw [h, decapitalized_capital (hsmall c List.mem_cons_self) fun d hd =>
        hsmall d (List.mem_cons_of_mem _ hd)]
    · rw [h, decapitalized_capitals hsmall]

/-! ## One word in any case -/

theorem pascal_of_word {c : Char} {rest : List Char} (hword : ∀ d ∈ c :: rest, isSeparator d = false) :
    pascal (c :: rest) = Text.upper c ++ rest := by
  rw [pascal, Text.pieces_eq_singleton hword, List.flatMap_cons, List.flatMap_nil, List.append_nil, capitalized]

theorem ascii_of_isLower_toLower {c : Char} (h : c.toLower.isLower = true) : c.toNat < 0x80 := by
  by_contra hascii
  have hlast (hcapital : c.toNat ≤ 'Z'.toNat) : False := hascii (hcapital.trans_lt (by decide))
  have hsame : c.toLower = c := dif_neg fun hcapital => hlast hcapital.2
  exact hascii (Text.ascii_of_isLower (hsame ▸ h))

/-- Casing a single word makes its first letter a capital and keeps the others. -/
theorem pascal_of_isLower_toLower {c : Char} {rest : List Char}
    (hword : ∀ d ∈ c :: rest, d.toLower.isLower = true) : pascal (c :: rest) = c.toUpper :: rest := by
  have hsep (d) (hd : d ∈ c :: rest) : isSeparator d = false :=
    isSeparator_eq_false (fun e => e.toLower.isLower) rfl rfl rfl (hword d hd)
  have hascii := ascii_of_isLower_toLower (hword c List.mem_cons_self)
  rw [pascal_of_word hsep, Text.upper_ascii hascii]
  rfl

theorem toUpper_toLower {c d : Char} (hc : c.isLower = true) (h : d.toLower = c) :
    d.toUpper = c.toUpper ∧ (d = c ∨ d = c.toUpper) := by
  subst h
  exact (Text.asciiCasing d (ascii_of_isLower_toLower hc)).letter hc

/-- A single word in any case becomes the property of that name when the letters behind the first one are all
small or all capitals. -/
theorem camelCase_eq_asciiLower_iff {name : String} {c : Char} {rest : List Char}
    (hplain : ∀ d ∈ c :: rest, Text.HasOneCapital d) (hname : Text.asciiLower name = String.ofList (c :: rest)) :
    camelCase name = String.ofList (c :: rest) ↔
      ∃ first ∈ [c, c.toUpper], ∃ others ∈ [rest, rest.map Char.toUpper],
        name = String.ofList (first :: others) := by
  rw [Text.asciiLower, String.ofList_inj, List.map_eq_cons_iff] at hname
  obtain ⟨d, behind, hlist, hd, hbehind⟩ := hname
  have hname : name = String.ofList (d :: behind) := by
    rw [← hlist, String.ofList_toList]
  have hsmall (e) (he : e ∈ d :: behind) : e.toLower.isLower = true := by
    have hmem : e.toLower ∈ (d :: behind).map Char.toLower := List.mem_map_of_mem he
    rw [List.map_cons, hd, hbehind] at hmem
    exact (hplain _ hmem).1
  obtain ⟨hcapital, hfirst⟩ := toUpper_toLower (hplain c List.mem_cons_self).1 hd
  rw [camelCase_eq_iff hplain, pascalCase, hlist, pascal_of_isLower_toLower hsmall, hcapital, hname]
  simp only [String.ofList_inj, List.cons.injEq, List.map_cons, true_and, List.mem_pair,
    exists_eq_or_imp, exists_eq_left]
  tauto

end Naming

end SmithyKotlin
