/-!
# Lists of entries

`findEntry` looks a key up in a list of entries, of which the first one with the key counts; it is what `KeyedList`
and `SortedMap` answer with.  `findEntry_eq_none_iff` says when there is no answer.  That keys are distinct is a
matter of those two types.
-/

namespace SmithyKotlin

/-- The value of the first entry with the given key. -/
def findEntry {α : Type} (key : String) : List (String × α) → Option α
  | [] => none
  | (k, v) :: rest => if k = key then some v else findEntry key rest

theorem mem_of_findEntry {α : Type} {key : String} {value : α} {entries : List (String × α)}
    (h : findEntry key entries = some value) : (key, value) ∈ entries := by
  induction entries with
  | nil => simp [findEntry] at h
  | cons p rest ih =>
    simp only [findEntry] at h
    split at h
    · rename_i hk
      injection h with h
      exact List.mem_cons.mpr (.inl (by rw [← hk, ← h]))
    · exact List.mem_cons_of_mem _ (ih h)

theorem findEntry_eq_none_iff {α : Type} {key : String} {entries : List (String × α)} :
    findEntry key entries = none ↔ key ∉ entries.map Prod.fst := by
  induction entries with
  | nil => simp [findEntry]
  | cons p rest ih =>
    obtain ⟨k, v⟩ := p
    by_cases hk : k = key
    · simp [findEntry, hk]
    · simp [findEntry, hk, ih, Ne.symm hk]

end SmithyKotlin
