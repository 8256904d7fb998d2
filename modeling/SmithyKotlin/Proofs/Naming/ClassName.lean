import SmithyKotlin.Proofs.Naming.Casing

/-!
# Class names as names of files

* `slash_mem_pascal_iff`: casing neither brings a slash into a name nor takes one out; the tables of letters are
  gone through for that (`upperRuns_bound`, `upperSequences_bound`).
* `pascal_ne_nil_iff`: it leaves something of every name that is not made of separators only.
* `namesFile_iff`: so it is seen from the name of a shape whether its class can name a file (`NamesFile`).
-/

namespace SmithyKotlin

namespace Text

theorem ofNat_ne {code : Nat} {c : Char} (hzero : c ≠ '\x00') (h : code ≠ c.toNat) :
    Char.ofNat code ≠ c := by
  intro heq
  by_cases hvalid : code.isValidChar
  · have hcode : Char.ofNat code = Char.ofNatAux code hvalid := dif_pos hvalid
    exact h (congrArg Char.toNat (hcode.symm.trans heq))
  · have hcode : Char.ofNat code = '\x00' := dif_neg hvalid
    exact hzero (heq.symm.trans hcode)

/-- All letters with one capital have it behind the ASCII digits. -/
theorem upperRuns_bound : ∀ run ∈ upperRuns, 0x30 ≤ (run.first : Int) + run.shift := by
  decide +kernel

theorem upperSequences_bound :
    ∀ entry ∈ upperSequences, entry.2 ≠ [] ∧ ∀ code ∈ entry.2, 0x30 ≤ code := by
  decide +kernel

theorem ne_slash_of_shiftIn {c d : Char} (h : shiftIn upperRuns c = some d) : d ≠ '/' := by
  obtain ⟨run, hfind, rfl⟩ := Option.map_eq_some_iff.mp h
  have hbound := upperRuns_bound run (List.mem_of_find?_eq_some hfind)
  have hholds := List.find?_some hfind
  rw [CodeRun.holds, Bool.and_eq_true, Bool.and_eq_true, decide_eq_true_eq] at hholds
  exact ofNat_ne (by decide) (show _ ≠ 0x2f by omega)

/-- What upper case makes of a character has a slash only if the character is one. -/
theorem slash_mem_upper_iff {c : Char} : '/' ∈ upper c ↔ c = '/' := by
  by_cases hascii : c.toNat < 0x80
  · have hall : ∀ c : Char, c.toNat < 0x80 → ('/' = c.toUpper ↔ c = '/') := forall_ascii (by decide +kernel)
    rw [upper_ascii hascii, List.mem_singleton, hall c hascii]
  · have hc : c ≠ '/' := by
      rintro rfl
      exact hascii (by decide)
    refine iff_of_false (fun hmem => ?_) hc
    rw [upper, if_neg hascii] at hmem
    split at hmem
    · rename_i codes hlookup
      obtain ⟨before, behind, hentry, _⟩ := List.lookup_eq_some_iff.mp hlookup
      obtain ⟨code, hcode, heq⟩ := List.mem_map.mp hmem
      have hbound := (upperSequences_bound _ (hentry ▸ List.mem_append_right _ List.mem_cons_self)).2
      have hge := hbound code hcode
      exact ofNat_ne (by decide) (show _ ≠ 0x2f by omega) heq
    · rw [List.mem_singleton] at hmem
      cases hshift : shiftIn upperRuns c with
      | none =>
        rw [hshift] at hmem
        exact hc hmem.symm
      | some d =>
        rw [hshift] at hmem
        exact ne_slash_of_shiftIn hshift hmem.symm

/-- Every character has an upper-case form. -/
theorem upper_ne_nil (c : Char) : upper c ≠ [] := by
  rw [upper]
  split
  · exact List.cons_ne_nil _ _
  · split
    · rename_i codes hlookup
      obtain ⟨before, behind, hentry, _⟩ := List.lookup_eq_some_iff.mp hlookup
      have hne := (upperSequences_bound _ (hentry ▸ List.mem_append_right _ List.mem_cons_self)).1
      exact mt List.map_eq_nil_iff.mp hne
    · exact List.cons_ne_nil _ _

end Text

namespace Naming

/-- Characters of a kind that no separator is of. -/
theorem isSeparator_eq_false (kind : Char → Bool) (hunderscore : kind '_' = false) (hhyphen : kind '-' = false)
    (hblank : kind ' ' = false) {c : Char} (hc : kind c = true) : isSeparator c = false := by
  have hother {d : Char} (hd : kind d = false) : c ≠ d := by
    rintro rfl
    rw [hc] at hd
    cases hd
  simp [isSeparator, hother hunderscore, hother hhyphen, hother hblank]

/-- A character that is no separator stays, or its upper-case form comes in its place. -/
theorem subset_pascal {name : List Char} {c : Char} (hmem : c ∈ name) (hsep : isSeparator c = false) :
    c ∈ pascal name ∨ ∀ d ∈ Text.upper c, d ∈ pascal name := by
  obtain ⟨piece, hpiece, hc⟩ := Text.exists_mem_pieces hmem hsep
  cases piece with
  | nil => cases hc
  | cons first rest =>
    rcases List.mem_cons.mp hc with rfl | hrest
    · exact .inr fun d hd => List.mem_flatMap.mpr ⟨_, hpiece, List.mem_append_left _ hd⟩
    · exact .inl (List.mem_flatMap.mpr ⟨_, hpiece, List.mem_append_right _ hrest⟩)

theorem slash_mem_pascal_iff {name : List Char} : '/' ∈ pascal name ↔ '/' ∈ name := by
  constructor
  · intro h
    obtain ⟨d, hd, _, rfl | hupper⟩ := mem_pascal h
    · exact hd
    · exact Text.slash_mem_upper_iff.mp hupper ▸ hd
  · intro h
    rcases subset_pascal h (by decide) with hmem | hupper
    · exact hmem
    · exact hupper '/' (Text.slash_mem_upper_iff.mpr rfl)

/-- Something is left of a name when it has more than separators. -/
theorem pascal_ne_nil_iff {name : List Char} :
    pascal name ≠ [] ↔ ∃ c ∈ name, isSeparator c = false := by
  constructor
  · intro h
    obtain ⟨c, hc⟩ := List.exists_mem_of_ne_nil _ h
    obtain ⟨d, hd, hsep, _⟩ := mem_pascal hc
    exact ⟨d, hd, hsep⟩
  · intro h
    obtain ⟨c, hc, hsep⟩ := h
    rcases subset_pascal hc hsep with hmem | hupper
    · exact List.ne_nil_of_mem hmem
    · obtain ⟨d, hd⟩ := List.exists_mem_of_ne_nil _ (Text.upper_ne_nil c)
      exact List.ne_nil_of_mem (hupper d hd)

/-- The class of a shape with the name can name a file: there is no slash in it, and something else than
separators. -/
def NamesFile (name : String) : Prop :=
  '/' ∉ name.toList ∧ ∃ c ∈ name.toList, isSeparator c = false

-- character by character, and not by trying all the characters there are
instance (name : String) : Decidable (NamesFile name) :=
  @instDecidableAnd _ _ _ (List.decidableBEx _ name.toList)

theorem namesFile_iff {name : String} :
    NamesFile name ↔ pascalCase name ≠ "" ∧ '/' ∉ (pascalCase name).toList := by
  rw [NamesFile, ← slash_mem_pascal_iff, ← pascal_ne_nil_iff, pascalCase, String.toList_ofList,
    and_comm, Ne, Ne, ← String.toList_eq_nil_iff, String.toList_ofList]

end Naming

end SmithyKotlin
