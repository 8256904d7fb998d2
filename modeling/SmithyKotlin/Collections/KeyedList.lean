import SmithyKotlin.Collections.Entries

/-!
# Entries in the order they were written

* `KeyedList`: entries with distinct keys, as in the objects of a document whose order matters; that they are
  distinct is part of the type.
* `KeyedList.put`: a key written again keeps its first place and gets the new value.
* `KeyedList.get?_put`: what is found after that.

Lists that were read at once (`KeyedList.ofList`) are described in `Proofs/Collections/KeyedList`.
-/

namespace SmithyKotlin

/-- Gives the first entry with this key the new value, or adds an entry at the end. -/
def putEntry {α : Type} (key : String) (value : α) : List (String × α) → List (String × α)
  | [] => [(key, value)]
  | (k, v) :: rest => if k = key then (k, value) :: rest else (k, v) :: putEntry key value rest

theorem mem_keys_putEntry {α : Type} {key k : String} {value : α} {entries : List (String × α)}
    (h : k ∈ (putEntry key value entries).map Prod.fst) :
    k = key ∨ k ∈ entries.map Prod.fst := by
  induction entries with
  | nil => simpa [putEntry] using h
  | cons p rest ih =>
    simp only [putEntry] at h
    split at h
    · exact .inr h
    · rcases List.mem_cons.mp h with h | h
      · exact .inr (h ▸ List.mem_cons_self)
      · exact (ih h).imp_right (List.mem_cons_of_mem _)

theorem nodup_putEntry {α : Type} {key : String} {value : α} {entries : List (String × α)}
    (h : (entries.map Prod.fst).Nodup) : ((putEntry key value entries).map Prod.fst).Nodup := by
  induction entries with
  | nil => simp [putEntry]
  | cons p rest ih =>
    obtain ⟨hhead, htail⟩ := List.nodup_cons.mp h
    simp only [putEntry]
    split
    · exact h
    · rename_i hne
      refine List.nodup_cons.mpr ⟨fun hmem => ?_, ih htail⟩
      rcases mem_keys_putEntry hmem with heq | hmem
      · exact hne heq
      · exact hhead hmem

theorem findEntry_putEntry {α : Type} (key query : String) (value : α)
    (entries : List (String × α)) :
    findEntry query (putEntry key value entries)
      = if key = query then some value else findEntry query entries := by
  induction entries with
  | nil => rfl
  | cons p rest ih =>
    obtain ⟨k, v⟩ := p
    simp only [putEntry]
    split
    · rename_i hk
      subst hk
      by_cases hq : k = query <;> simp [findEntry, hq]
    · rename_i hk
      simp only [findEntry, ih]
      by_cases hq : k = query
      · subst hq; simp [Ne.symm hk]
      · simp [hq]

/-- A key that is new goes to the end. -/
theorem putEntry_of_not_mem {α : Type} {key : String} {value : α} {entries : List (String × α)}
    (h : key ∉ entries.map Prod.fst) : putEntry key value entries = entries ++ [(key, value)] := by
  induction entries with
  | nil => rfl
  | cons p rest ih =>
    obtain ⟨k, v⟩ := p
    simp only [List.map_cons, List.mem_cons, not_or] at h
    simp only [putEntry, ih h.2, List.cons_append, if_neg (Ne.symm h.1)]

/-- Entries with distinct keys, in the order they were first written. -/
structure KeyedList (α : Type) where
  entries : List (String × α)
  distinct : (entries.map Prod.fst).Nodup

namespace KeyedList

variable {α : Type}

def empty : KeyedList α := ⟨[], List.nodup_nil⟩

instance : EmptyCollection (KeyedList α) := ⟨empty⟩

instance : Inhabited (KeyedList α) := ⟨empty⟩

def put (list : KeyedList α) (key : String) (value : α) : KeyedList α :=
  ⟨putEntry key value list.entries, nodup_putEntry list.distinct⟩

def ofList (entries : List (String × α)) : KeyedList α :=
  entries.foldl (fun list e => list.put e.1 e.2) empty

def keys (list : KeyedList α) : List String := list.entries.map Prod.fst

def isEmpty (list : KeyedList α) : Bool := list.entries.isEmpty

def get? (list : KeyedList α) (key : String) : Option α := findEntry key list.entries

theorem get?_put (list : KeyedList α) (key query : String) (value : α) :
    (list.put key value).get? query = if key = query then some value else list.get? query :=
  findEntry_putEntry key query value list.entries

end KeyedList

end SmithyKotlin
