import SmithyKotlin.Collections.Entries

/-!
# Maps in the order of their keys

* `SortedMap`: a map from texts is the list of its entries, `Ascending` by code point; the order is part of the
  type.
* `SortedMap.get?_insert` and its kind: every operation is described by what `get?` answers after it.
* `SortedMap.ext_get?`: a map is known by these answers, so two maps are compared by them.
* `SortedMap.insert_comm`: insertions under different keys can change places.

Folds of insertions and `merge` are left to `Proofs/Collections/SortedMap`.
-/

namespace SmithyKotlin

/-- Entries in strictly ascending order of their keys. -/
def Ascending {α : Type} (entries : List (String × α)) : Prop :=
  entries.Pairwise fun a b => a.1 < b.1

/-- Puts an entry at its place in an ascending list; an entry with the same key is replaced. -/
def insertEntry {α : Type} (key : String) (value : α) : List (String × α) → List (String × α)
  | [] => [(key, value)]
  | (k, v) :: rest =>
    if key < k then (key, value) :: (k, v) :: rest
    else if key = k then (key, value) :: rest
    else (k, v) :: insertEntry key value rest

theorem mem_insertEntry {α : Type} {key : String} {value : α} {entries : List (String × α)}
    {e : String × α} (h : e ∈ insertEntry key value entries) : e = (key, value) ∨ e ∈ entries := by
  induction entries with
  | nil => simpa [insertEntry] using h
  | cons p rest ih =>
    simp only [insertEntry] at h
    split at h
    · simpa using h
    · split at h
      · rcases List.mem_cons.mp h with h | h
        · exact .inl h
        · exact .inr (List.mem_cons_of_mem _ h)
      · rcases List.mem_cons.mp h with h | h
        · exact .inr (h ▸ List.mem_cons_self)
        · exact (ih h).imp_right (List.mem_cons_of_mem _)

theorem ascending_insertEntry {α : Type} {key : String} {value : α}
    {entries : List (String × α)} (h : Ascending entries) :
    Ascending (insertEntry key value entries) := by
  induction entries with
  | nil => exact List.pairwise_singleton _ _
  | cons p rest ih =>
    obtain ⟨hhead, htail⟩ := List.pairwise_cons.mp h
    simp only [insertEntry]
    split
    · rename_i hlt
      refine List.pairwise_cons.mpr ⟨fun e he => ?_, h⟩
      rcases List.mem_cons.mp he with rfl | he
      · exact hlt
      · exact String.lt_trans hlt (hhead e he)
    · split
      · rename_i heq
        exact List.pairwise_cons.mpr ⟨fun e he => heq ▸ hhead e he, htail⟩
      · rename_i hnlt hne
        refine List.pairwise_cons.mpr ⟨fun e he => ?_, ih htail⟩
        rcases mem_insertEntry he with rfl | he
        · rcases String.le_total p.1 key with hle | hle
          · exact String.not_le.mp fun hge => hne (String.le_antisymm hge hle)
          · exact absurd (String.not_le.mp fun hge => hne (String.le_antisymm hle hge)) hnlt
        · exact hhead e he

theorem findEntry_insertEntry {α : Type} (key query : String) (value : α)
    (entries : List (String × α)) :
    findEntry query (insertEntry key value entries)
      = if key = query then some value else findEntry query entries := by
  induction entries with
  | nil => rfl
  | cons p rest ih =>
    obtain ⟨k, v⟩ := p
    simp only [insertEntry]
    split
    · rfl
    · split
      · rename_i heq
        subst heq
        by_cases hq : key = query <;> simp [findEntry, hq]
      · rename_i hne
        simp only [findEntry, ih]
        by_cases hk : k = query
        · subst hk; simp [hne]
        · simp [hk]

/-- Each entry of an ascending list is the one that its key finds. -/
theorem findEntry_of_mem {α : Type} {key : String} {value : α} {entries : List (String × α)}
    (h : Ascending entries) (hmem : (key, value) ∈ entries) :
    findEntry key entries = some value := by
  induction entries with
  | nil => cases hmem
  | cons p rest ih =>
    obtain ⟨hhead, htail⟩ := List.pairwise_cons.mp h
    rcases List.mem_cons.mp hmem with rfl | hmem
    · simp [findEntry]
    · have hne : p.1 ≠ key := fun heq => String.lt_irrefl _ (heq ▸ hhead _ hmem)
      simp only [findEntry, if_neg hne, ih htail hmem]

/-- An ascending list is known by the entries in it. -/
theorem Ascending.ext {α : Type} {xs ys : List (String × α)} (hx : Ascending xs)
    (hy : Ascending ys) (h : ∀ e, e ∈ xs ↔ e ∈ ys) : xs = ys := by
  induction xs generalizing ys with
  | nil =>
    cases ys with
    | nil => rfl
    | cons q rest => exact absurd ((h q).mpr List.mem_cons_self) List.not_mem_nil
  | cons p xs ih =>
    cases ys with
    | nil => exact absurd ((h p).mp List.mem_cons_self) List.not_mem_nil
    | cons q ys =>
      obtain ⟨hp, hxs⟩ := List.pairwise_cons.mp hx
      obtain ⟨hq, hys⟩ := List.pairwise_cons.mp hy
      have hpq : p = q := by
        rcases List.mem_cons.mp ((h p).mp List.mem_cons_self) with heq | hmem
        · exact heq
        · rcases List.mem_cons.mp ((h q).mpr List.mem_cons_self) with heq | hmem'
          · exact heq.symm
          · exact absurd (String.lt_trans (hp q hmem') (hq p hmem)) (String.lt_irrefl _)
      subst hpq
      have htail : ∀ e, e ∈ xs ↔ e ∈ ys := by
        intro e
        constructor
        · intro he
          rcases List.mem_cons.mp ((h e).mp (List.mem_cons_of_mem _ he)) with rfl | he'
          · exact absurd (hp e he) (String.lt_irrefl _)
          · exact he'
        · intro he
          rcases List.mem_cons.mp ((h e).mpr (List.mem_cons_of_mem _ he)) with rfl | he'
          · exact absurd (hq e he) (String.lt_irrefl _)
          · exact he'
      rw [ih hxs hys htail]

/-- A map from texts to values of type `α`. -/
structure SortedMap (α : Type) where
  entries : List (String × α)
  ascending : Ascending entries

namespace SortedMap

variable {α β : Type}

def empty : SortedMap α := ⟨[], List.Pairwise.nil⟩

instance : EmptyCollection (SortedMap α) := ⟨empty⟩

instance : Inhabited (SortedMap α) := ⟨empty⟩

def get? (map : SortedMap α) (key : String) : Option α := findEntry key map.entries

def contains (map : SortedMap α) (key : String) : Bool := (map.get? key).isSome

def insert (map : SortedMap α) (key : String) (value : α) : SortedMap α :=
  ⟨insertEntry key value map.entries, ascending_insertEntry map.ascending⟩

def size (map : SortedMap α) : Nat := map.entries.length

def isEmpty (map : SortedMap α) : Bool := map.entries.isEmpty

def keys (map : SortedMap α) : List String := map.entries.map (·.1)

def values (map : SortedMap α) : List α := map.entries.map (·.2)

/-- Adds entries one after another; of two with the same key the later one stays. -/
def insertAll (map : SortedMap α) (entries : List (String × α)) : SortedMap α :=
  entries.foldl (fun m e => m.insert e.1 e.2) map

def ofList (entries : List (String × α)) : SortedMap α := empty.insertAll entries

/-- All entries of both maps, those of `other` where both have one. -/
def merge (map other : SortedMap α) : SortedMap α := map.insertAll other.entries

/-- The entries whose keys satisfy `keep`. -/
def filterKeys (map : SortedMap α) (keep : String → Bool) : SortedMap α :=
  ⟨map.entries.filter fun e => keep e.1, List.Pairwise.filter _ map.ascending⟩

def erase (map : SortedMap α) (key : String) : SortedMap α := map.filterKeys (· != key)

theorem get?_empty (key : String) : (empty : SortedMap α).get? key = none := rfl

theorem get?_insert (map : SortedMap α) (key query : String) (value : α) :
    (map.insert key value).get? query = if key = query then some value else map.get? query :=
  findEntry_insertEntry key query value map.entries

theorem get?_insert_self (map : SortedMap α) (key : String) (value : α) :
    (map.insert key value).get? key = some value := by
  rw [get?_insert, if_pos rfl]

theorem mem_entries_of_get? {map : SortedMap α} {key : String} {value : α}
    (h : map.get? key = some value) : (key, value) ∈ map.entries := mem_of_findEntry h

theorem get?_eq_some_iff {map : SortedMap α} {key : String} {value : α} :
    map.get? key = some value ↔ (key, value) ∈ map.entries :=
  ⟨mem_of_findEntry, findEntry_of_mem map.ascending⟩

/-- A map is known by what its keys find. -/
theorem ext_get? {a b : SortedMap α} (h : ∀ key, a.get? key = b.get? key) : a = b := by
  obtain ⟨xs, hx⟩ := a
  obtain ⟨ys, hy⟩ := b
  have hmem : ∀ e, e ∈ xs ↔ e ∈ ys := by
    intro e
    have hxe := @get?_eq_some_iff α ⟨xs, hx⟩ e.1 e.2
    have hye := @get?_eq_some_iff α ⟨ys, hy⟩ e.1 e.2
    rw [← hxe, ← hye, h]
  cases hx.ext hy hmem
  rfl

/-- Insertions under different keys may be made in either order. -/
theorem insert_comm (map : SortedMap α) {k l : String} (v w : α) (h : k ≠ l) :
    (map.insert k v).insert l w = (map.insert l w).insert k v := by
  refine ext_get? fun key => ?_
  simp only [get?_insert]
  by_cases hk : k = key
  · subst hk; simp [Ne.symm h]
  · simp [hk]

theorem size_erase_lt {map : SortedMap α} {key : String} {value : α}
    (h : map.get? key = some value) : (map.erase key).size < map.size := by
  refine List.length_filter_lt_length_iff_exists.mpr ⟨_, mem_entries_of_get? h, ?_⟩
  simp

end SortedMap

end SmithyKotlin
