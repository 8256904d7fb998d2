import SmithyKotlin.Proofs.Document.Conversion

/-!
# The order of a document

Where an entry stands in its document does not matter, neither for the question whether the document can be
converted (`Reordered.convertible`) nor for the model that it describes (`Reordered.describes`);
`Document.toModel_reordered` says so of the conversion.  An `apply` may stand before or behind the shape that it
addresses, and in any order with the other ones, because no two of them address the same thing
(`entry_eq_of_appliesTo`).

Members keep their order within a shape: that is part of the model.
-/

namespace SmithyKotlin

theorem KeyedList.get?_eq_of_perm {α : Type} {a b : KeyedList α}
    (hperm : a.entries.Perm b.entries) (key : String) : a.get? key = b.get? key := by
  rw [Option.ext_iff]
  intro value
  rw [KeyedList.get?_eq_some_iff, KeyedList.get?_eq_some_iff, hperm.mem_iff]

namespace Document

/-- The entry applies traits to the shape, or to the member of it with the given name. -/
def AppliesTo (entry : String × Definition) (id : ShapeId) (member? : Option String) : Prop :=
  entry.2.body.tag = .apply ∧ (⟨entry.1⟩ : ShapeId).container = id ∧
    (⟨entry.1⟩ : ShapeId).member? = member?

/-- Under ids one entry at most applies traits to a shape or member. -/
theorem entry_eq_of_appliesTo {document : Document}
    (hkeys : ∀ entry ∈ document.shapes.entries, ShapeId.IsQualified entry.1)
    {entry other : String × Definition} (hentry : entry ∈ document.shapes.entries)
    (hother : other ∈ document.shapes.entries) {id : ShapeId} {member? : Option String}
    (hfor : AppliesTo entry id member?) (hforOther : AppliesTo other id member?) :
    entry = other := by
  have hid : (⟨entry.1⟩ : ShapeId) = ⟨other.1⟩ :=
    ShapeId.eq_of_address_eq (ShapeId.isAbsolute_iff.mpr (hkeys entry hentry))
      (ShapeId.isAbsolute_iff.mpr (hkeys other hother)) (hfor.2.1.trans hforOther.2.1.symm)
      (hfor.2.2.trans hforOther.2.2.symm)
  have hkey : entry.1 = other.1 := congrArg ShapeId.text hid
  have hget : document.shapes.get? entry.1 = some entry.2 := KeyedList.get?_eq_some_iff.mpr hentry
  have hgetOther : document.shapes.get? other.1 = some other.2 :=
    KeyedList.get?_eq_some_iff.mpr hother
  rw [hkey, hgetOther] at hget
  exact Prod.ext hkey (Option.some.inj hget).symm

/-- The entry that counts need not be the first one, since it is the only one. -/
theorem applied?_eq_some_iff {document : Document}
    (hkeys : ∀ entry ∈ document.shapes.entries, ShapeId.IsQualified entry.1) {id : ShapeId}
    {member? : Option String} {trait : String} {value : Json} :
    document.applied? id member? trait = some value ↔ ∃ entry ∈ document.shapes.entries,
      AppliesTo entry id member? ∧ entry.2.traits.get? trait = some value := by
  have hfound (value : Json) (h : document.applied? id member? trait = some value) :
      ∃ entry ∈ document.shapes.entries, AppliesTo entry id member? ∧
        entry.2.traits.get? trait = some value := by
    obtain ⟨entry, hentry, hvalue⟩ := List.exists_of_findSome?_eq_some h
    rw [Option.ite_none_right_eq_some] at hvalue
    exact ⟨entry, hentry, hvalue⟩
  refine ⟨hfound value, fun h => ?_⟩
  obtain ⟨entry, hentry, hfor, hvalue⟩ := h
  have hsome : (document.applied? id member? trait).isSome := by
    rw [applied?, List.findSome?_isSome_iff]
    refine ⟨entry, hentry, ?_⟩
    rw [if_pos (show _ ∧ _ ∧ _ from hfor), hvalue, Option.isSome_some]
  obtain ⟨first, hfirst⟩ := Option.isSome_iff_exists.mp hsome
  obtain ⟨other, hother, hforOther, hvalueOther⟩ := hfound first hfirst
  obtain rfl := entry_eq_of_appliesTo hkeys hentry hother hfor hforOther
  rw [hfirst, ← hvalueOther, hvalue]

/-- The documents have the same version and the same entries, which may stand in another order. -/
structure Reordered (a b : Document) : Prop where
  version : a.version = b.version
  shapes : a.shapes.entries.Perm b.shapes.entries
  metadata : a.metadata.entries.Perm b.metadata.entries

namespace Reordered

variable {a b : Document} (h : a.Reordered b)

include h

theorem symm : b.Reordered a := ⟨h.version.symm, h.shapes.symm, h.metadata.symm⟩

theorem definition?_eq (id : String) : a.definition? id = b.definition? id :=
  KeyedList.get?_eq_of_perm h.shapes id

theorem hasMembers_iff (id : ShapeId) (names : List String) :
    a.HasMembers id names ↔ b.HasMembers id names := by
  rw [HasMembers, HasMembers, h.definition?_eq]

theorem convertible (hconvertible : a.Convertible) : b.Convertible := by
  obtain ⟨hversion, hreadable, happlies⟩ := hconvertible
  rw [h.version] at hversion
  simp only [h.shapes.mem_iff] at hreadable
  simp only [h.shapes.mem_iff, h.hasMembers_iff] at happlies
  exact ⟨hversion, hreadable, happlies⟩

theorem applied?_eq (hkeys : ∀ entry ∈ a.shapes.entries, ShapeId.IsQualified entry.1)
    (id : ShapeId) (member? : Option String) (trait : String) :
    a.applied? id member? trait = b.applied? id member? trait := by
  have hkeysOther : ∀ entry ∈ b.shapes.entries, ShapeId.IsQualified entry.1 := by
    simp only [← h.shapes.mem_iff]
    exact hkeys
  rw [Option.ext_iff]
  intro value
  rw [applied?_eq_some_iff hkeys, applied?_eq_some_iff hkeysOther]
  simp only [h.shapes.mem_iff]

/-- What one document describes, the other one describes too. -/
theorem describes (hkeys : ∀ entry ∈ a.shapes.entries, ShapeId.IsQualified entry.1)
    {model : Model} (hdescribes : a.Describes model) : b.Describes model := by
  have happlied := h.applied?_eq hkeys
  obtain ⟨hids, hprelude, hdefinitions, hmetadata⟩ := hdescribes
  refine ⟨fun id => ?_, fun shape hshape => ?_, fun id definition hget htag hmem => ?_,
    fun key => ?_⟩
  · rw [← h.definition?_eq]
    exact hids id
  · obtain ⟨found, hget, hid, htype, hmembers, htraits⟩ := hprelude shape hshape
    simp only [happlied] at htraits
    exact ⟨found, hget, hid, htype, hmembers, htraits⟩
  · rw [← h.definition?_eq] at hget
    obtain ⟨shape, hshape, hid, htype, hmembers, htraits⟩ := hdefinitions id definition hget htag hmem
    simp only [happlied] at htraits
    refine ⟨shape, hshape, hid, htype, hmembers.imp fun entry member hmember => ?_, htraits⟩
    obtain ⟨hname, hmemberId, htarget, hmemberTraits⟩ := hmember
    simp only [happlied] at hmemberTraits
    exact ⟨hname, hmemberId, htarget, hmemberTraits⟩
  · rw [hmetadata]
    exact KeyedList.get?_eq_of_perm h.metadata key

theorem toModel_eq_ok {model : Model} (hmodel : a.toModel = .ok model) :
    b.toModel = .ok model := by
  obtain ⟨hconvertible, hdescribes⟩ := ((toModel_eq_ok_iff a).2 model).mp hmodel
  have hkeys (entry) (hmem : entry ∈ a.shapes.entries) := (hconvertible.readable entry hmem).key
  exact ((toModel_eq_ok_iff b).2 model).mpr ⟨h.convertible hconvertible, h.describes hkeys hdescribes⟩

end Reordered

/-- Documents with the same entries in any order give the same model, or none of them gives one. -/
theorem toModel_reordered (a b : Document) (hversion : a.version = b.version)
    (hshapes : a.shapes.entries.Perm b.shapes.entries)
    (hmetadata : a.metadata.entries.Perm b.metadata.entries) :
    (∃ model, a.toModel = .ok model ∧ b.toModel = .ok model) ∨
      ∃ error error', a.toModel = .error error ∧ b.toModel = .error error' := by
  have h : a.Reordered b := ⟨hversion, hshapes, hmetadata⟩
  cases ha : a.toModel with
  | ok model => exact .inl ⟨model, rfl, h.toModel_eq_ok ha⟩
  | error error =>
    cases hb : b.toModel with
    | ok model =>
      rw [h.symm.toModel_eq_ok hb] at ha
      cases ha
    | error error' => exact .inr ⟨error, error', rfl, rfl⟩

/-- A note whose text has to be there, with the `apply` definitions in front of what they address. -/
def note : Document where
  version := "2.0"
  shapes := ⟨[("com.a#Note$text", ⟨.apply, ⟨[(Trait.required, Json.emptyObject)], by decide⟩⟩),
    ("smithy.api#String", ⟨.apply, ⟨[(Trait.documentation, .string "A text")], by decide⟩⟩),
    ("com.a#Note", ⟨.group .struct ⟨[("text", ⟨"smithy.api#String", {}⟩)], by decide⟩, {}⟩)],
    by decide⟩
  metadata := ⟨[("first", .bool true), ("second", .null)], by decide⟩

/-- The note with all its entries the other way round. -/
def noteReversed : Document where
  version := "2.0"
  shapes := ⟨note.shapes.entries.reverse, by decide⟩
  metadata := ⟨note.metadata.entries.reverse, by decide⟩

theorem toModel_reordered_note :
    note.version = noteReversed.version ∧
      note.shapes.entries.Perm noteReversed.shapes.entries ∧
      note.metadata.entries.Perm noteReversed.metadata.entries ∧
      ∃ model, note.toModel = .ok model ∧ noteReversed.toModel = .ok model := by
  have hshapes : note.shapes.entries.Perm noteReversed.shapes.entries :=
    (List.reverse_perm _).symm
  have hmetadata : note.metadata.entries.Perm noteReversed.metadata.entries :=
    (List.reverse_perm _).symm
  refine ⟨rfl, hshapes, hmetadata, ?_⟩
  have hok : note.toModel.isOk = true := by decide +kernel
  rcases toModel_reordered note noteReversed rfl hshapes hmetadata with h | ⟨error, _, herror, _⟩
  · exact h
  · rw [herror] at hok
    cases hok

end Document

end SmithyKotlin
