import SmithyKotlin.Json.Decode
import SmithyKotlin.Proofs.Collections.SortedMap
import SmithyKotlin.Proofs.Json.Printable

/-!
# JSON values that are carried unchanged

* `Json.Sorted` and `Json.depth`: the order of the fields in every object, and how deep a value is nested.
* `Source.exists_toJson?_ofJson`: with room for its depth a value comes back, and unchanged if it is sorted
  (`Source.asJson_ofJson`).
* `Json.Fits`: the value is not too deep for a limit and its numbers have a text.
* `Json.Readable`: what is known of a value that was read under a limit, that it is sorted and fits
  (`Source.readable_of_toJson?`).

The texts in between are left out; they are read in `Source.read_compact` and `Source.read_pretty`.
-/

namespace SmithyKotlin

namespace Json

/-! ### Order and depth -/

mutual

/-- Every object in the value has its fields in the order of their names, no name twice. -/
def Sorted : Json → Prop
  | array items => ItemsSorted items
  | object fields => Ascending fields ∧ FieldsSorted fields
  | _ => True

def ItemsSorted : List Json → Prop
  | [] => True
  | item :: rest => item.Sorted ∧ ItemsSorted rest

def FieldsSorted : List (String × Json) → Prop
  | [] => True
  | (_, value) :: rest => value.Sorted ∧ FieldsSorted rest

end

mutual

def decideSorted : (value : Json) → Decidable value.Sorted
  | null | bool _ | number _ | string _ => .isTrue True.intro
  | array items => decideItemsSorted items
  | object fields =>
    @instDecidableAnd _ _ (inferInstanceAs (Decidable (fields.Pairwise fun a b => a.1 < b.1)))
      (decideFieldsSorted fields)

def decideItemsSorted : (items : List Json) → Decidable (ItemsSorted items)
  | [] => .isTrue True.intro
  | item :: rest => @instDecidableAnd _ _ (decideSorted item) (decideItemsSorted rest)

def decideFieldsSorted : (fields : List (String × Json)) → Decidable (FieldsSorted fields)
  | [] => .isTrue True.intro
  | (_, value) :: rest => @instDecidableAnd _ _ (decideSorted value) (decideFieldsSorted rest)

end

instance : DecidablePred Sorted := decideSorted

mutual

/-- How deep arrays and objects are nested in the value. -/
def depth : Json → Nat
  | array items => itemsDepth items + 1
  | object fields => fieldsDepth fields + 1
  | _ => 0

def itemsDepth : List Json → Nat
  | [] => 0
  | item :: rest => max item.depth (itemsDepth rest)

def fieldsDepth : List (String × Json) → Nat
  | [] => 0
  | (_, value) :: rest => max value.depth (fieldsDepth rest)

end

theorem itemsSorted_iff {items : List Json} :
    ItemsSorted items ↔ ∀ item ∈ items, item.Sorted := by
  induction items with
  | nil => simp [ItemsSorted]
  | cons item rest ih => rw [ItemsSorted, ih, List.forall_mem_cons]

theorem fieldsSorted_iff {fields : List (String × Json)} :
    FieldsSorted fields ↔ ∀ field ∈ fields, field.2.Sorted := by
  induction fields with
  | nil => simp [FieldsSorted]
  | cons field rest ih => rw [FieldsSorted, ih, List.forall_mem_cons]

theorem itemsDepth_le_iff {items : List Json} {room : Nat} :
    itemsDepth items ≤ room ↔ ∀ item ∈ items, item.depth ≤ room := by
  induction items with
  | nil => simp [itemsDepth]
  | cons item rest ih => rw [itemsDepth, Nat.max_le, ih, List.forall_mem_cons]

theorem fieldsDepth_le_iff {fields : List (String × Json)} {room : Nat} :
    fieldsDepth fields ≤ room ↔ ∀ field ∈ fields, field.2.depth ≤ room := by
  induction fields with
  | nil => simp [fieldsDepth]
  | cons field rest ih => rw [fieldsDepth, Nat.max_le, ih, List.forall_mem_cons]

theorem depth_array_le_iff {items : List Json} {room : Nat} :
    (array items).depth ≤ room ↔ 0 < room ∧ ∀ item ∈ items, item.depth ≤ room - 1 := by
  rw [depth, ← itemsDepth_le_iff]
  omega

theorem depth_object_le_iff {fields : List (String × Json)} {room : Nat} :
    (object fields).depth ≤ room ↔ 0 < room ∧ ∀ field ∈ fields, field.2.depth ≤ room - 1 := by
  rw [depth, ← fieldsDepth_le_iff]
  omega

/-- Fields that are in order already make up an object as they are. -/
theorem ofFields_of_ascending {fields : List (String × Json)} (h : Ascending fields) :
    ofFields fields = object fields := by
  have hfold := @foldl_insertEntry_of_ascending _ [] fields h
  rw [ofFields, hfold, List.nil_append]

/-- The value can be written and read where `room` levels of nesting are left. -/
@[mk_iff]
structure Fits (room : Nat) (value : Json) : Prop where
  depth : value.depth ≤ room
  printable : value.Printable

theorem Fits.mono {value : Json} {room more : Nat} (h : value.Fits room) (hroom : room ≤ more) : value.Fits more :=
  ⟨Nat.le_trans h.depth hroom, h.printable⟩

theorem fits_string (text : String) (room : Nat) : (string text).Fits room := ⟨Nat.zero_le _, True.intro⟩

theorem fits_null (room : Nat) : null.Fits room := ⟨Nat.zero_le _, True.intro⟩

theorem fits_array_iff {items : List Json} {room : Nat} :
    (array items).Fits room ↔ 0 < room ∧ ∀ item ∈ items, item.Fits (room - 1) := by
  simp only [fits_iff, depth_array_le_iff, printable_array_iff, and_assoc, ← forall₂_and]

theorem fits_object_iff {fields : List (String × Json)} {room : Nat} :
    (object fields).Fits room ↔ 0 < room ∧ ∀ field ∈ fields, field.2.Fits (room - 1) := by
  simp only [fits_iff, depth_object_le_iff, printable_object_iff, and_assoc, ← forall₂_and]

/-- The value can be what is read where `room` levels of nesting are left. -/
structure Readable (room : Nat) (value : Json) : Prop where
  sorted : value.Sorted
  fits : value.Fits room

theorem readable_ofFields {fields : List (String × Json)} {room : Nat} (hroom : 0 < room)
    (h : ∀ field ∈ fields, field.2.Readable (room - 1)) : (ofFields fields).Readable room := by
  have hkept : ∀ field ∈ fields.foldl (fun sorted field => insertEntry field.1 field.2 sorted) [],
      field.2.Readable (room - 1) := by
    intro field hfield
    rcases mem_foldl_insertEntry hfield with hmem | hmem
    · exact h field hmem
    · cases hmem
  refine ⟨⟨ascending_foldl_insertEntry List.Pairwise.nil, fieldsSorted_iff.mpr ?_⟩,
    fits_object_iff.mpr ⟨hroom, ?_⟩⟩
  · exact fun field hfield => (hkept field hfield).sorted
  · exact fun field hfield => (hkept field hfield).fits

end Json

namespace Source

/-! ### Reading what was written -/

mutual

/-- With room for its depth a value can be read back; if its objects are in order, it is the same. -/
theorem exists_toJson?_ofJson : ∀ (value : Json) {room : Nat}, value.depth ≤ room →
    ∃ found, (ofJson value).toJson? room = some found ∧ (value.Sorted → found = value)
  | .null, _, _ | .bool _, _, _ | .number _, _, _ | .string _, _, _ => ⟨_, rfl, fun _ => rfl⟩
  | .array items, room, h => by
    obtain ⟨hroom, hitems⟩ := Json.depth_array_le_iff.mp h
    obtain ⟨found, hfound, hsame⟩ :=
      exists_itemsToJson?_ofItems items (Json.itemsDepth_le_iff.mpr hitems)
    refine ⟨.array found, ?_, fun hsorted => by rw [hsame hsorted]⟩
    simp [ofJson, toJson?, hroom, hfound]
  | .object fields, room, h => by
    obtain ⟨hroom, hfields⟩ := Json.depth_object_le_iff.mp h
    obtain ⟨found, hfound, hsame⟩ :=
      exists_fieldsToJson?_ofFields fields (Json.fieldsDepth_le_iff.mpr hfields)
    refine ⟨.ofFields found, ?_, fun hsorted => ?_⟩
    · simp [ofJson, toJson?, hroom, hfound]
    · rw [hsame hsorted.2, Json.ofFields_of_ascending hsorted.1]

theorem exists_itemsToJson?_ofItems : ∀ (items : List Json) {room : Nat},
    Json.itemsDepth items ≤ room → ∃ found, itemsToJson? room (ofItems items) = some found ∧
      (Json.ItemsSorted items → found = items)
  | [], _, _ => ⟨[], rfl, fun _ => rfl⟩
  | item :: rest, room, h => by
    obtain ⟨hitem, hrest⟩ := Nat.max_le.mp h
    obtain ⟨value, hvalue, hsame⟩ := exists_toJson?_ofJson item hitem
    obtain ⟨values, hvalues, hsames⟩ := exists_itemsToJson?_ofItems rest hrest
    refine ⟨value :: values, ?_, fun hsorted => by rw [hsame hsorted.1, hsames hsorted.2]⟩
    simp [ofItems, itemsToJson?, hvalue, hvalues]

theorem exists_fieldsToJson?_ofFields : ∀ (fields : List (String × Json)) {room : Nat},
    Json.fieldsDepth fields ≤ room → ∃ found, fieldsToJson? room (ofFields fields) = some found ∧
      (Json.FieldsSorted fields → found = fields)
  | [], _, _ => ⟨[], rfl, fun _ => rfl⟩
  | (name, field) :: rest, room, h => by
    obtain ⟨hfield, hrest⟩ := Nat.max_le.mp h
    obtain ⟨value, hvalue, hsame⟩ := exists_toJson?_ofJson field hfield
    obtain ⟨values, hvalues, hsames⟩ := exists_fieldsToJson?_ofFields rest hrest
    refine ⟨(name, value) :: values, ?_, fun hsorted => by rw [hsame hsorted.1, hsames hsorted.2]⟩
    simp [ofFields, fieldsToJson?, hvalue, hvalues]

end

theorem isSome_toJson?_ofJson {value : Json} {room : Nat} (h : value.depth ≤ room) :
    ((ofJson value).toJson? room).isSome := by
  obtain ⟨found, hfound, _⟩ := exists_toJson?_ofJson value h
  rw [hfound, Option.isSome_some]

/-- A value whose objects are in order is carried unchanged. -/
theorem asJson_ofJson {value : Json} {room : Nat} (hsorted : value.Sorted) (hdepth : value.depth ≤ room) :
    asJson room (ofJson value) = .ok value := by
  obtain ⟨found, hfound, hsame⟩ := exists_toJson?_ofJson value hdepth
  rw [asJson, hfound, hsame hsorted, Option.elim_some]

/-! ### What is read -/

mutual

theorem readable_of_toJson? : ∀ {source : Source} {room : Nat} {value : Json}, source.Printable →
    source.toJson? room = some value → value.Readable room
  | .null, _, _, hsource, h | .bool _, _, _, hsource, h | .number _, _, _, hsource, h
  | .string _, _, _, hsource, h => by
    cases h
    exact ⟨True.intro, Nat.zero_le _, hsource⟩
  | .array items ended, room, value, hsource, h => by
    rw [toJson?, Option.ite_none_right_eq_some, Option.map_eq_some_iff, Bool.and_eq_true,
      decide_eq_true_eq] at h
    obtain ⟨⟨_, hroom⟩, found, hfound, rfl⟩ := h
    have hitems := readable_of_itemsToJson? hsource hfound
    refine ⟨Json.itemsSorted_iff.mpr ?_, Json.fits_array_iff.mpr ⟨hroom, ?_⟩⟩
    · exact fun item hitem => (hitems item hitem).sorted
    · exact fun item hitem => (hitems item hitem).fits
  | .object fields ended, room, value, hsource, h => by
    rw [toJson?, Option.ite_none_right_eq_some, Option.map_eq_some_iff, Bool.and_eq_true,
      decide_eq_true_eq] at h
    obtain ⟨⟨_, hroom⟩, found, hfound, rfl⟩ := h
    exact Json.readable_ofFields hroom (readable_of_fieldsToJson? hsource hfound)
  | .unreadable, _, _, _, h | .broken, _, _, _, h => by cases h

theorem readable_of_itemsToJson? : ∀ {items : List Source} {room : Nat} {values : List Json},
    ItemsPrintable items → itemsToJson? room items = some values → ∀ value ∈ values, value.Readable room
  | [], _, _, _, h => by
    cases h
    exact fun _ hmem => absurd hmem List.not_mem_nil
  | item :: rest, room, values, hitems, h => by
    simp only [itemsToJson?, Option.bind_eq_bind, Option.bind_eq_some_iff, Option.pure_def,
      Option.some.injEq] at h
    obtain ⟨value, hvalue, others, hothers, rfl⟩ := h
    exact List.forall_mem_cons.mpr
      ⟨readable_of_toJson? hitems.1 hvalue, readable_of_itemsToJson? hitems.2 hothers⟩

theorem readable_of_fieldsToJson? : ∀ {fields : List (Option String × Source)} {room : Nat}
    {values : List (String × Json)}, FieldsPrintable fields →
    fieldsToJson? room fields = some values → ∀ field ∈ values, field.2.Readable room
  | [], _, _, _, h => by
    cases h
    exact fun _ hmem => absurd hmem List.not_mem_nil
  | (none, _) :: _, _, _, _, h => by cases h
  | (some name, field) :: rest, room, values, hfields, h => by
    simp only [fieldsToJson?, Option.bind_eq_bind, Option.bind_eq_some_iff, Option.pure_def,
      Option.some.injEq] at h
    obtain ⟨value, hvalue, others, hothers, rfl⟩ := h
    exact List.forall_mem_cons.mpr
      ⟨readable_of_toJson? hfields.1 hvalue, readable_of_fieldsToJson? hfields.2 hothers⟩

end

theorem readable_of_asJson {source : Source} {room : Nat} {value : Json} (hsource : source.Printable)
    (h : asJson room source = .ok value) : value.Readable room := by
  cases hfound : source.toJson? room with
  | none =>
    rw [asJson, hfound] at h
    cases h
  | some found =>
    rw [asJson, hfound] at h
    cases h
    exact readable_of_toJson? hsource hfound

end Source

end SmithyKotlin
