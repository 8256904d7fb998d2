/-!
# Blanks and lines

* `isBlank`: the white space of Unicode, and `trim` by it.
* `pieces` and `split` cut a text at every separator, `cut?` and `before` at the first one.

All functions work on the characters of a text; the versions on `String` wrap them.  A text is put together again
from its pieces in `Proofs/Text/Pieces`.
-/

namespace SmithyKotlin.Text

/-- The 25 characters with the property White_Space. -/
def isBlank (c : Char) : Bool :=
  let code := c.toNat
  (9 ≤ code && code ≤ 13) || code == 0x20 || code == 0x85 || code == 0xa0 || code == 0x1680
    || (0x2000 ≤ code && code ≤ 0x200a) || code == 0x2028 || code == 0x2029 || code == 0x202f
    || code == 0x205f || code == 0x3000

def dropBlanksEnd (cs : List Char) : List Char :=
  (cs.reverse.dropWhile isBlank).reverse

def trimEnd (text : String) : String := String.ofList (dropBlanksEnd text.toList)

def trim (text : String) : String :=
  String.ofList (dropBlanksEnd (text.toList.dropWhile isBlank))

/-- The parts between the characters that satisfy `sep`; there is always at least one. -/
def pieces (sep : Char → Bool) : List Char → List (List Char)
  | [] => [[]]
  | c :: rest =>
    if sep c then [] :: pieces sep rest
    else match pieces sep rest with
      | [] => [[c]]
      | piece :: others => (c :: piece) :: others

theorem pieces_ne_nil (sep : Char → Bool) (cs : List Char) : pieces sep cs ≠ [] := by
  cases cs with
  | nil => simp [pieces]
  | cons c rest => simp only [pieces]; split <;> (try split) <;> simp

/-- No part holds a separator. -/
theorem sep_of_mem_pieces {sep : Char → Bool} {cs piece : List Char} {c : Char}
    (hp : piece ∈ pieces sep cs) (hc : c ∈ piece) : sep c = false := by
  induction cs generalizing piece with
  | nil =>
    simp only [pieces, List.mem_singleton] at hp
    rw [hp] at hc
    cases hc
  | cons d rest ih =>
    simp only [pieces] at hp
    split at hp
    · rcases List.mem_cons.mp hp with rfl | hp
      · cases hc
      · exact ih hp hc
    · rename_i hd
      split at hp
      · rename_i hnil
        exact absurd hnil (pieces_ne_nil sep rest)
      · rename_i first others heq
        rcases List.mem_cons.mp hp with rfl | hp
        · rcases List.mem_cons.mp hc with rfl | hc
          · simpa using hd
          · exact ih (heq ▸ List.mem_cons_self) hc
        · exact ih (heq ▸ List.mem_cons_of_mem _ hp) hc

/-- The parts of a text between the occurrences of `sep`. -/
def split (sep : Char) (text : String) : List String :=
  (pieces (· == sep) text.toList).map String.ofList

/-- What stands before and after the first occurrence of `sep`. -/
def cutList (sep : Char) : List Char → Option (List Char × List Char)
  | [] => none
  | c :: rest =>
    if c = sep then some ([], rest)
    else (cutList sep rest).map fun parts => (c :: parts.1, parts.2)

theorem cutList_eq_none_iff {sep : Char} {cs : List Char} : cutList sep cs = none ↔ sep ∉ cs := by
  induction cs with
  | nil => simp [cutList]
  | cons c rest ih =>
    by_cases hc : c = sep
    · simp [cutList, hc]
    · simp [cutList, hc, ih, Ne.symm hc]

/-- Nothing is lost by a cut, and it is made at the first occurrence. -/
theorem cutList_eq_some_iff {sep : Char} {cs first second : List Char} :
    cutList sep cs = some (first, second) ↔ cs = first ++ sep :: second ∧ sep ∉ first := by
  induction cs generalizing first with
  | nil => simp [cutList]
  | cons c rest ih =>
    by_cases hc : c = sep
    · subst hc
      cases first with
      | nil => simp [cutList]
      | cons d tail =>
        simp only [cutList, List.cons_append, List.cons.injEq, List.mem_cons]
        constructor
        · intro h
          cases h
        · rintro ⟨⟨hd, _⟩, hmem⟩
          exact absurd (.inl hd) hmem
    · cases first with
      | nil => simp [cutList, hc]
      | cons d tail =>
        simp only [cutList, if_neg hc, Option.map_eq_some_iff, Prod.mk.injEq, List.cons.injEq,
          List.cons_append, List.mem_cons, not_or]
        constructor
        · rintro ⟨⟨a, b⟩, hcut, ⟨rfl, rfl⟩, rfl⟩
          obtain ⟨hrest, hmem⟩ := ih.mp hcut
          exact ⟨⟨rfl, hrest⟩, Ne.symm hc, hmem⟩
        · rintro ⟨⟨rfl, hrest⟩, _, hmem⟩
          exact ⟨(tail, second), ih.mpr ⟨hrest, hmem⟩, ⟨rfl, rfl⟩, rfl⟩

def cut? (sep : Char) (text : String) : Option (String × String) :=
  (cutList sep text.toList).map fun parts => (String.ofList parts.1, String.ofList parts.2)

/-- What stands before the first `sep`, or everything. -/
def before (sep : Char) (text : String) : String :=
  (cut? sep text).elim text (·.1)

end SmithyKotlin.Text
