import Mathlib.Data.List.Nodup
import SmithyKotlin.Collections.KeyedList

/-!
# Lists of entries that are put together

* `KeyedList.ofList_entries`: entries with distinct keys are put together as they are.
* `KeyedList.mem_of_mem_ofList`: whatever the keys, nothing is kept that was not put in.

Which of several entries with one key is kept is said by `KeyedList.get?_put`.
-/

namespace SmithyKotlin

variable {α : Type}

theorem mem_putEntry {key : String} {value : α} {entries : List (String × α)} {e : String × α}
    (h : e ∈ putEntry key value entries) : e = (key, value) ∨ e ∈ entries := by
  induction entries with
  | nil => exact .inl (List.mem_singleton.mp h)
  | cons p rest ih =>
    rw [putEntry] at h
    split at h
    · rename_i hkey
      rcases List.mem_cons.mp h with heq | hrest
      · exact .inl (hkey ▸ heq)
      · exact .inr (List.mem_cons_of_mem _ hrest)
    · rcases List.mem_cons.mp h with heq | hrest
      · exact .inr (heq ▸ List.mem_cons_self)
      · exact (ih hrest).imp_right (List.mem_cons_of_mem _)

namespace KeyedList

theorem entries_foldl_put {rest : List (String × α)} {start : KeyedList α}
    (h : ((start.entries ++ rest).map Prod.fst).Nodup) :
    (rest.foldl (fun list e => list.put e.1 e.2) start).entries = start.entries ++ rest := by
  induction rest generalizing start with
  | nil => exact (List.append_nil _).symm
  | cons p rest ih =>
    have hnew : p.1 ∉ start.entries.map Prod.fst := by
      rw [List.map_append, List.map_cons, List.nodup_append] at h
      exact fun hmem => h.2.2 _ hmem _ List.mem_cons_self rfl
    have hput : (start.put p.1 p.2).entries = start.entries ++ [p] := putEntry_of_not_mem hnew
    rw [List.append_cons] at h ⊢
    rw [List.foldl_cons, ih (hput ▸ h), hput]

theorem ofList_entries (list : KeyedList α) : ofList list.entries = list := by
  obtain ⟨entries, hdistinct⟩ := list
  have hentries : (ofList entries).entries = entries := entries_foldl_put hdistinct
  generalize ofList entries = built at hentries ⊢
  obtain ⟨found, _⟩ := built
  subst hentries
  rfl

theorem mem_entries_foldl_put {rest : List (String × α)} {start : KeyedList α} {e : String × α}
    (h : e ∈ (rest.foldl (fun list e => list.put e.1 e.2) start).entries) :
    e ∈ start.entries ∨ e ∈ rest := by
  induction rest generalizing start with
  | nil => exact .inl h
  | cons p rest ih =>
    rcases ih h with hstart | hrest
    · rcases mem_putEntry hstart with rfl | hmem
      · exact .inr List.mem_cons_self
      · exact .inl hmem
    · exact .inr (List.mem_cons_of_mem _ hrest)

theorem mem_of_mem_ofList {entries : List (String × α)} {e : String × α}
    (h : e ∈ (ofList entries).entries) : e ∈ entries := by
  rcases mem_entries_foldl_put h with hmem | hmem
  · cases hmem
  · exact hmem

end KeyedList

end SmithyKotlin
