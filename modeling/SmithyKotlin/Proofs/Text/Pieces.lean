import SmithyKotlin.Text.Blank

/-!
# Parts of a text

* `Text.exists_mem_pieces`: the parts between separators hold the characters of the text that are no separators.
* `Text.pieces_append_cons`, `Text.split_around`: a text that is put together at a separator has the parts of both
  sides, and where something without separators is put in, the parts around it grow.
* `Text.takeWhile_append_of_head?`: a run of characters is found again in front of what does not go on with it.
-/

namespace SmithyKotlin.Text

/-- The characters of a part are characters of the whole. -/
theorem mem_of_mem_pieces {sep : Char → Bool} {cs piece : List Char} {c : Char}
    (hp : piece ∈ pieces sep cs) (hc : c ∈ piece) : c ∈ cs := by
  induction cs generalizing piece with
  | nil =>
    rw [pieces, List.mem_singleton] at hp
    exact hp ▸ hc
  | cons d rest ih =>
    rw [pieces] at hp
    split at hp
    · rcases List.mem_cons.mp hp with rfl | hp
      · cases hc
      · exact List.mem_cons_of_mem _ (ih hp hc)
    · split at hp
      · rename_i hnil
        exact absurd hnil (pieces_ne_nil sep rest)
      · rename_i first others heq
        rcases List.mem_cons.mp hp with rfl | hp
        · rcases List.mem_cons.mp hc with rfl | hc
          · exact List.mem_cons_self
          · exact List.mem_cons_of_mem _ (ih (heq ▸ List.mem_cons_self) hc)
        · exact List.mem_cons_of_mem _ (ih (heq ▸ List.mem_cons_of_mem _ hp) hc)

/-- Every character that is no separator stands in a part. -/
theorem exists_mem_pieces {sep : Char → Bool} {cs : List Char} {c : Char} (hmem : c ∈ cs)
    (hsep : sep c = false) : ∃ piece ∈ pieces sep cs, c ∈ piece := by
  induction cs with
  | nil => cases hmem
  | cons d rest ih =>
    rw [pieces]
    rcases List.mem_cons.mp hmem with rfl | hrest
    · rw [hsep, if_neg Bool.false_ne_true]
      split
      · exact ⟨[c], List.mem_singleton_self _, List.mem_singleton_self _⟩
      · exact ⟨_, List.mem_cons_self, List.mem_cons_self⟩
    · obtain ⟨piece, hpiece, hc⟩ := ih hrest
      split
      · exact ⟨piece, List.mem_cons_of_mem _ hpiece, hc⟩
      · split
        · rename_i hnil
          exact absurd hnil (pieces_ne_nil sep rest)
        · rename_i first others heq
          rw [heq] at hpiece
          rcases List.mem_cons.mp hpiece with rfl | hothers
          · exact ⟨_, List.mem_cons_self, List.mem_cons_of_mem _ hc⟩
          · exact ⟨piece, List.mem_cons_of_mem _ hothers, hc⟩

/-- Where two texts meet, the last part of the first one and the first part of the second one become one part. -/
theorem pieces_append (sep : Char → Bool) (xs ys : List Char) : ∃ early last first later,
    pieces sep xs = early ++ [last] ∧ pieces sep ys = first :: later ∧
      pieces sep (xs ++ ys) = early ++ (last ++ first) :: later := by
  induction xs with
  | nil =>
    obtain ⟨first, later, hys⟩ := List.exists_cons_of_ne_nil (pieces_ne_nil sep ys)
    exact ⟨[], [], first, later, rfl, hys, hys⟩
  | cons x rest ih =>
    obtain ⟨early, last, first, later, hrest, hys, hwhole⟩ := ih
    rw [List.cons_append, pieces, pieces, hrest, hwhole]
    by_cases hx : sep x = true
    · rw [if_pos hx, if_pos hx]
      exact ⟨[] :: early, last, first, later, rfl, hys, rfl⟩
    · rw [if_neg hx, if_neg hx]
      cases early with
      | nil => exact ⟨[], x :: last, first, later, rfl, hys, rfl⟩
      | cons piece others => exact ⟨(x :: piece) :: others, last, first, later, rfl, hys, rfl⟩

/-- A separator ends one part and starts another one. -/
theorem pieces_append_cons {sep : Char → Bool} {c : Char} (hc : sep c = true) (xs ys : List Char) :
    pieces sep (xs ++ c :: ys) = pieces sep xs ++ pieces sep ys := by
  obtain ⟨early, last, first, later, hxs, hbehind, hwhole⟩ := pieces_append sep xs (c :: ys)
  rw [pieces, if_pos hc] at hbehind
  obtain ⟨rfl, rfl⟩ := List.cons.inj hbehind
  rw [hwhole, hxs, List.append_nil, List.append_assoc, List.singleton_append]

theorem pieces_eq_singleton {sep : Char → Bool} {cs : List Char} (h : ∀ c ∈ cs, sep c = false) :
    pieces sep cs = [cs] := by
  induction cs with
  | nil => rfl
  | cons c rest ih =>
    obtain ⟨hc, hrest⟩ := List.forall_mem_cons.mp h
    rw [pieces, ih hrest, hc]
    rfl

/-- A text without separators stays in one part, whatever stands around it. -/
theorem pieces_around {sep : Char → Bool} {inner : List Char} (hinner : ∀ c ∈ inner, sep c = false)
    (front behind : List Char) : ∃ early start rest later,
      pieces sep front = early ++ [start] ∧ pieces sep behind = rest :: later ∧
        pieces sep (front ++ inner ++ behind) = early ++ (start ++ inner ++ rest) :: later := by
  obtain ⟨early, start, first, others, hfront, hsingle, hleft⟩ := pieces_append sep front inner
  obtain ⟨early', last, rest, later, hleft', hbehind, hwhole⟩ := pieces_append sep (front ++ inner) behind
  rw [pieces_eq_singleton hinner] at hsingle
  obtain ⟨rfl, rfl⟩ := List.cons.inj hsingle
  obtain ⟨rfl, hlast⟩ := List.append_inj' (hleft.symm.trans hleft') rfl
  obtain ⟨rfl, _⟩ := List.cons.inj hlast
  exact ⟨early, start, rest, later, hfront, hbehind, hwhole⟩

theorem beq_eq_false_of_not_mem {sep : Char} {text : List Char} (h : sep ∉ text) :
    ∀ c ∈ text, (c == sep) = false := by
  intro c hc
  refine beq_eq_false_iff_ne.mpr ?_
  rintro rfl
  exact h hc

theorem split_eq_singleton {sep : Char} {text : String} (h : sep ∉ text.toList) : split sep text = [text] := by
  rw [split, pieces_eq_singleton (beq_eq_false_of_not_mem h), List.map_singleton, String.ofList_toList]

/-- The same of the parts of a text at one character. -/
theorem split_around {sep : Char} {inner : String} (hinner : sep ∉ inner.toList) (front behind : String) :
    ∃ early start rest later, split sep front = early ++ [start] ∧ split sep behind = rest :: later ∧
      split sep (front ++ inner ++ behind) = early ++ (start ++ inner ++ rest) :: later := by
  obtain ⟨early, start, rest, later, hfront, hbehind, hwhole⟩ :=
    pieces_around (beq_eq_false_of_not_mem hinner) front.toList behind.toList
  refine ⟨early.map String.ofList, String.ofList start, String.ofList rest, later.map String.ofList, ?_, ?_, ?_⟩
  · rw [split, hfront, List.map_append, List.map_singleton]
  · rw [split, hbehind, List.map_cons]
  · rw [split, String.toList_append, String.toList_append, hwhole, List.map_append, List.map_cons,
      String.ofList_append, String.ofList_append, String.ofList_toList]

/-- A run of characters that ends where the next one is another. -/
theorem takeWhile_append_of_head? {p : Char → Bool} {run rest : List Char} (hrun : ∀ c ∈ run, p c = true)
    (hrest : rest.head?.any p = false) :
    (run ++ rest).takeWhile p = run ∧ (run ++ rest).dropWhile p = rest := by
  rw [List.takeWhile_append_of_pos hrun, List.dropWhile_append_of_pos hrun]
  cases rest with
  | nil => exact ⟨List.append_nil _, rfl⟩
  | cons c others =>
    have hc : p c = false := hrest
    simp [hc]

end SmithyKotlin.Text
