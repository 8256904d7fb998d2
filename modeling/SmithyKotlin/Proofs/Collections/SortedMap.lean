import Mathlib.Data.List.Nodup
import SmithyKotlin.Collections.KeyedList
import SmithyKotlin.Collections.SortedMap

/-!
# Look-ups after several insertions

* `SortedMap.get?_insertAll`, `get?_ofList`, `get?_merge`, `get?_filterKeys`, `get?_mapValues`: what a key finds
  once entries were added, left out or changed.
* `SortedMap.ext_keys`: a map of nothing but keys is known by them.
* `SortedMap.find?_entries_eq_some_iff` and `smallest_of_entries_cons`: the first entry with a property is the one
  with the smallest key.

Where the added keys differ, the order of the insertions does not show in any of these.
-/

namespace SmithyKotlin

variable {α : Type}

/-! ### Entries -/

/-- With distinct keys every entry is the one that its key finds. -/
theorem findEntry_eq_some_iff {key : String} {value : α} {entries : List (String × α)}
    (hnodup : (entries.map Prod.fst).Nodup) :
    findEntry key entries = some value ↔ (key, value) ∈ entries := by
  constructor
  · exact mem_of_findEntry
  · intro hmem
    induction entries with
    | nil => cases hmem
    | cons p rest ih =>
      rw [List.map_cons, List.nodup_cons] at hnodup
      rcases List.mem_cons.mp hmem with rfl | hrest
      · simp [findEntry]
      · have hne : p.1 ≠ key := by
          intro heq
          exact hnodup.1 (heq ▸ List.mem_map_of_mem hrest)
        simp only [findEntry, if_neg hne]
        exact ih hnodup.2 hrest

/-- Entries made from some of the elements of a list have their keys in the order of the list. -/
theorem keys_filterMap_sublist {β : Type} {f : α → Option (String × β)} {key : α → String}
    (hkey : ∀ a image, f a = some image → image.1 = key a) (xs : List α) :
    ((xs.filterMap f).map Prod.fst).Sublist (xs.map key) := by
  induction xs with
  | nil => exact List.Sublist.refl _
  | cons x rest ih =>
    cases himage : f x with
    | none =>
      rw [List.filterMap_cons_none himage]
      exact ih.cons _
    | some image =>
      rw [List.filterMap_cons_some himage, List.map_cons, List.map_cons, hkey x image himage]
      exact ih.cons_cons _

theorem Ascending.nodup_keys {entries : List (String × α)} (h : Ascending entries) :
    (entries.map Prod.fst).Nodup := by
  rw [List.nodup_iff_pairwise_ne, List.pairwise_map]
  refine List.Pairwise.imp ?_ h
  intro a b hlt heq
  exact String.lt_irrefl _ (heq ▸ hlt)

/-- An entry behind all others goes to the end. -/
theorem insertEntry_of_forall_lt {key : String} {value : α} {entries : List (String × α)}
    (h : ∀ e ∈ entries, e.1 < key) : insertEntry key value entries = entries ++ [(key, value)] := by
  induction entries with
  | nil => rfl
  | cons p rest ih =>
    obtain ⟨hp, hrest⟩ := List.forall_mem_cons.mp h
    have hne : key ≠ p.1 := fun heq => String.lt_irrefl _ (heq ▸ hp)
    simp only [insertEntry, if_neg (String.lt_asymm hp), if_neg hne, ih hrest, List.cons_append]

/-- Entries that are in order already are put together as they are. -/
theorem foldl_insertEntry_of_ascending {start entries : List (String × α)}
    (h : Ascending (start ++ entries)) :
    entries.foldl (fun sorted e => insertEntry e.1 e.2 sorted) start = start ++ entries := by
  induction entries generalizing start with
  | nil => rw [List.foldl_nil, List.append_nil]
  | cons p rest ih =>
    have hlast : ∀ e ∈ start, e.1 < p.1 := fun e he =>
      (List.pairwise_append.mp h).2.2 e he p List.mem_cons_self
    have hsplit : start ++ p :: rest = (start ++ [p]) ++ rest := List.append_cons start p rest
    rw [List.foldl_cons, insertEntry_of_forall_lt hlast, ih (hsplit ▸ h), hsplit]

theorem ascending_foldl_insertEntry {start entries : List (String × α)} (h : Ascending start) :
    Ascending (entries.foldl (fun sorted e => insertEntry e.1 e.2 sorted) start) := by
  induction entries generalizing start with
  | nil => exact h
  | cons p rest ih => exact ih (ascending_insertEntry h)

theorem mem_foldl_insertEntry {start entries : List (String × α)} {e : String × α}
    (h : e ∈ entries.foldl (fun sorted e => insertEntry e.1 e.2 sorted) start) :
    e ∈ entries ∨ e ∈ start := by
  induction entries generalizing start with
  | nil => exact .inr h
  | cons p rest ih =>
    rcases ih h with hmem | hmem
    · exact .inl (List.mem_cons_of_mem _ hmem)
    · rcases mem_insertEntry hmem with rfl | hstart
      · exact .inl List.mem_cons_self
      · exact .inr hstart

theorem KeyedList.get?_eq_some_iff {list : KeyedList α} {key : String} {value : α} :
    list.get? key = some value ↔ (key, value) ∈ list.entries :=
  findEntry_eq_some_iff list.distinct

/-! ### Maps -/

namespace SortedMap

theorem mem_keys_iff {map : SortedMap α} {key : String} :
    key ∈ map.keys ↔ ∃ value, map.get? key = some value := by
  simp only [keys, List.mem_map, get?_eq_some_iff, Prod.exists, exists_and_right, exists_eq_right]

theorem get?_insertAll (map : SortedMap α) {entries : List (String × α)}
    (hnodup : (entries.map Prod.fst).Nodup) (key : String) :
    (map.insertAll entries).get? key = (findEntry key entries).or (map.get? key) := by
  induction entries generalizing map with
  | nil => rfl
  | cons p rest ih =>
    rw [List.map_cons, List.nodup_cons] at hnodup
    have hstep : map.insertAll (p :: rest) = (map.insert p.1 p.2).insertAll rest := rfl
    rw [hstep, ih _ hnodup.2, get?_insert]
    simp only [findEntry]
    by_cases hkey : p.1 = key
    · rw [if_pos hkey, if_pos hkey]
      have hnone : findEntry key rest = none := findEntry_eq_none_iff.mpr (hkey ▸ hnodup.1)
      rw [hnone]
      rfl
    · rw [if_neg hkey, if_neg hkey]

/-- What is found was there or was added. -/
theorem mem_of_get?_insertAll {map : SortedMap α} {entries : List (String × α)} {key : String} {value : α}
    (h : (map.insertAll entries).get? key = some value) :
    (key, value) ∈ entries ∨ map.get? key = some value := by
  induction entries generalizing map with
  | nil => exact .inr h
  | cons p rest ih =>
    have hstep : map.insertAll (p :: rest) = (map.insert p.1 p.2).insertAll rest := rfl
    rw [hstep] at h
    rcases ih h with hmem | hget
    · exact .inl (List.mem_cons_of_mem _ hmem)
    · rw [get?_insert] at hget
      split at hget
      · rename_i hkey
        rw [Option.some.injEq] at hget
        exact .inl (hkey ▸ hget ▸ List.mem_cons_self)
      · exact .inr hget

/-- A merge is a union in which the second map counts first. -/
theorem get?_merge (map other : SortedMap α) (key : String) :
    (map.merge other).get? key = (other.get? key).or (map.get? key) :=
  get?_insertAll map other.ascending.nodup_keys key

/-- Maps to a single value are told apart by their keys. -/
theorem ext_keys {first second : SortedMap Unit} (h : ∀ key, key ∈ first.keys ↔ key ∈ second.keys) :
    first = second := by
  refine ext_get? fun key => Option.ext fun value => ?_
  have hmem (map : SortedMap Unit) : map.get? key = some value ↔ key ∈ map.keys := by
    rw [mem_keys_iff]
    exact ⟨fun hvalue => ⟨value, hvalue⟩, fun ⟨_, hvalue⟩ => hvalue⟩
  rw [hmem, hmem, h]

theorem mem_keys_merge {map other : SortedMap α} {key : String} :
    key ∈ (map.merge other).keys ↔ key ∈ map.keys ∨ key ∈ other.keys := by
  simp only [mem_keys_iff, get?_merge, Option.or_eq_some_iff]
  constructor
  · intro h
    obtain ⟨value, hother | ⟨_, hmap⟩⟩ := h
    · exact .inr ⟨value, hother⟩
    · exact .inl ⟨value, hmap⟩
  · intro h
    cases hother : other.get? key with
    | some value => exact ⟨value, .inl rfl⟩
    | none =>
      obtain ⟨value, hmap⟩ | ⟨value, hvalue⟩ := h
      · exact ⟨value, .inr ⟨rfl, hmap⟩⟩
      · rw [hother] at hvalue
        cases hvalue

theorem get?_ofList {entries : List (String × α)} (hnodup : (entries.map Prod.fst).Nodup)
    (key : String) : (ofList entries).get? key = findEntry key entries := by
  rw [ofList, get?_insertAll _ hnodup, get?_empty, Option.or_none]

theorem get?_filterKeys (map : SortedMap α) (keep : String → Bool) (key : String) :
    (map.filterKeys keep).get? key = if keep key then map.get? key else none := by
  rw [Option.ext_iff]
  intro value
  rw [get?_eq_some_iff]
  simp only [filterKeys, List.mem_filter, ← get?_eq_some_iff]
  by_cases hkeep : keep key = true
  · rw [if_pos hkeep]
    simp [hkeep]
  · rw [if_neg hkeep]
    simp [hkeep]

/-- The first entry with some property has the smallest key among the entries with it. -/
theorem find?_entries_eq_some_iff (map : SortedMap α) (p : α → Bool) (key : String) (value : α) :
    map.entries.find? (fun entry => p entry.2) = some (key, value) ↔
      map.get? key = some value ∧ p value = true ∧
        ∀ other found, map.get? other = some found → p found = true → key ≤ other := by
  simp only [get?_eq_some_iff]
  have hasc : Ascending map.entries := map.ascending
  generalize map.entries = entries at hasc
  induction entries with
  | nil => simp
  | cons e rest ih =>
    obtain ⟨hhead, htail⟩ := List.pairwise_cons.mp hasc
    by_cases hp : p e.2 = true
    · have hfind : (e :: rest).find? (fun entry => p entry.2) = some e :=
        List.find?_cons_of_pos hp
      rw [hfind]
      constructor
      · intro h
        cases h
        refine ⟨List.mem_cons_self, hp, fun other found hmem _ => ?_⟩
        rcases List.mem_cons.mp hmem with heq | hrest
        · cases heq
          exact String.le_refl _
        · exact String.not_lt.mp (String.lt_asymm (hhead _ hrest))
      · intro h
        obtain ⟨hmem, _, hmin⟩ := h
        rcases List.mem_cons.mp hmem with heq | hrest
        · rw [heq]
        · have hle := hmin e.1 e.2 List.mem_cons_self hp
          exact absurd (hhead _ hrest) (String.not_lt.mpr hle)
    · have hfind : (e :: rest).find? (fun entry => p entry.2)
          = rest.find? (fun entry => p entry.2) := List.find?_cons_of_neg hp
      rw [hfind]
      refine (ih htail).trans ?_
      constructor
      · intro h
        obtain ⟨hmem, hv, hmin⟩ := h
        refine ⟨List.mem_cons_of_mem _ hmem, hv, fun other found hother hfound => ?_⟩
        rcases List.mem_cons.mp hother with heq | hrest
        · exact absurd (congrArg Prod.snd heq ▸ hfound) hp
        · exact hmin other found hrest hfound
      · intro h
        obtain ⟨hmem, hv, hmin⟩ := h
        rcases List.mem_cons.mp hmem with heq | hrest
        · exact absurd (congrArg Prod.snd heq ▸ hv) hp
        · exact ⟨hrest, hv, fun other found hother hfound =>
            hmin other found (List.mem_cons_of_mem _ hother) hfound⟩

/-- The first entry has the smallest key. -/
theorem smallest_of_entries_cons {map : SortedMap α} {key : String} {value : α}
    {rest : List (String × α)} (h : map.entries = (key, value) :: rest) :
    map.get? key = some value ∧ ∀ other found, map.get? other = some found → key ≤ other := by
  have hfind : map.entries.find? (fun _ => true) = some (key, value) := by
    rw [h]
    rfl
  obtain ⟨hget, _, hmin⟩ :=
    (map.find?_entries_eq_some_iff (fun _ => true) key value).mp hfind
  exact ⟨hget, fun other found hother => hmin other found hother rfl⟩

/-- The map with other values under the same keys. -/
def mapValues {β : Type} (f : String → α → β) (map : SortedMap α) : SortedMap β where
  entries := map.entries.map fun entry => (entry.1, f entry.1 entry.2)
  ascending := by
    rw [Ascending, List.pairwise_map]
    exact map.ascending

theorem get?_mapValues {β : Type} (f : String → α → β) (map : SortedMap α) (key : String) :
    (map.mapValues f).get? key = (map.get? key).map (f key) := by
  rw [Option.ext_iff]
  intro value
  rw [get?_eq_some_iff, mapValues, List.mem_map, Option.map_eq_some_iff]
  simp only [get?_eq_some_iff, Prod.exists, Prod.mk.injEq]
  constructor
  · intro h
    obtain ⟨k, found, hmem, rfl, rfl⟩ := h
    exact ⟨found, hmem, rfl⟩
  · intro h
    obtain ⟨found, hmem, rfl⟩ := h
    exact ⟨key, found, hmem, rfl, rfl⟩

end SortedMap

end SmithyKotlin
