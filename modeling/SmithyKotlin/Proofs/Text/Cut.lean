import Mathlib.Data.String.Basic
import SmithyKotlin.Text.Blank

/-!
# Cutting texts

A cut of a text at a character, said of texts: `Text.cut?_eq_some_iff` has the parts around the first occurrence,
which together with the character are the text again, and `Text.before_eq_iff` the part in front of it.  Cutting
everywhere is left to `Proofs/Text/Pieces`.
-/

namespace SmithyKotlin.Text

theorem cut?_eq_some_iff {sep : Char} {text first second : String} :
    cut? sep text = some (first, second) ↔
      text = first ++ String.singleton sep ++ second ∧ sep ∉ first.toList := by
  rw [cut?, Option.map_eq_some_iff]
  constructor
  · intro h
    obtain ⟨⟨xs, ys⟩, hcut, hparts⟩ := h
    cases hparts
    obtain ⟨hlist, hmem⟩ := cutList_eq_some_iff.mp hcut
    refine ⟨?_, ?_⟩
    · rw [← String.toList_inj, hlist]
      simp only [String.toList_append, String.toList_ofList, String.toList_singleton,
        List.append_assoc, List.singleton_append]
    · rw [String.toList_ofList]
      exact hmem
  · intro h
    obtain ⟨rfl, hmem⟩ := h
    refine ⟨(first.toList, second.toList), cutList_eq_some_iff.mpr ⟨?_, hmem⟩, ?_⟩
    · simp only [String.toList_append, String.toList_singleton, List.append_assoc,
        List.singleton_append]
    · simp only [String.ofList_toList]

theorem cut?_eq_none_iff {sep : Char} {text : String} :
    cut? sep text = none ↔ sep ∉ text.toList := by
  rw [cut?, Option.map_eq_none_iff, cutList_eq_none_iff]

/-- What stands before a character is the whole text, or the character follows it. -/
theorem before_eq_iff {sep : Char} {text first : String} (hfirst : sep ∉ first.toList) :
    before sep text = first ↔
      text = first ∨ ∃ second, text = first ++ String.singleton sep ++ second := by
  show (cut? sep text).elim text (·.1) = first ↔ _
  cases hcut : cut? sep text with
  | none =>
    have hnot := cut?_eq_none_iff.mp hcut
    constructor
    · exact .inl
    · intro h
      rcases h with h | ⟨second, h⟩
      · exact h
      · rw [cut?_eq_some_iff.mpr ⟨h, hfirst⟩] at hcut
        cases hcut
  | some parts =>
    obtain ⟨x, y⟩ := parts
    obtain ⟨htext, hmem⟩ := cut?_eq_some_iff.mp hcut
    constructor
    · rintro rfl
      exact .inr ⟨y, htext⟩
    · intro h
      rcases h with h | ⟨second, h⟩
      · rw [← h, htext] at hfirst
        simp at hfirst
      · rw [cut?_eq_some_iff.mpr ⟨h, hfirst⟩] at hcut
        cases hcut
        rfl

theorem not_mem_before (sep : Char) (text : String) : sep ∉ (before sep text).toList := by
  show sep ∉ ((cut? sep text).elim text (·.1)).toList
  cases hcut : cut? sep text with
  | none => exact cut?_eq_none_iff.mp hcut
  | some parts => exact (cut?_eq_some_iff.mp hcut).2

/-- A text that has the character goes on with it behind what stands before it. -/
theorem exists_eq_before_append {sep : Char} {text : String} (hmem : sep ∈ text.toList) :
    ∃ second, text = before sep text ++ String.singleton sep ++ second := by
  rcases (before_eq_iff (not_mem_before sep text)).mp rfl with h | h
  · exact absurd (h ▸ hmem) (not_mem_before sep text)
  · exact h

/-- A text that does not have the character can be put in front of both sides. -/
theorem before_append {sep : Char} {front : String} (hfront : sep ∉ front.toList) (text : String) :
    before sep (front ++ text) = front ++ before sep text := by
  have hmem : sep ∉ (front ++ before sep text).toList := by
    rw [String.toList_append, List.mem_append, not_or]
    exact ⟨hfront, not_mem_before sep text⟩
  rw [before_eq_iff hmem]
  rcases (before_eq_iff (not_mem_before sep text)).mp rfl with h | ⟨second, h⟩
  · rw [← h]
    exact .inl rfl
  · refine .inr ⟨second, (congrArg (front ++ ·) h).trans ?_⟩
    simp only [String.append_assoc]

end SmithyKotlin.Text
