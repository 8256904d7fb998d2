import SmithyKotlin.Proofs.Collections.KeyedList
import SmithyKotlin.Proofs.Document.RoundTrip

/-!
# Documents that were read

What every document has that a decoder gave.

* `RecordType.read_keeps`: what every field keeps, the parts of the whole record have; each decoder is an instance
  of it, with `Parts.Readable` as what is kept.
* `Document.Printable`: the JSON values in a document have their objects in order, and what is written of it is not
  nested too deep and has numbers with a text.
* `Document.printable_of_read`: so it is for every document from a text.  A decoder may fill in empty parts, so a
  few levels are there in any case.
* `Document.decode_encode_of_read`: such a document is written as one that is read again.

The texts themselves are left to `Proofs/Document/Printed`.
-/

namespace SmithyKotlin

/-! ### Inverting the decoders of parts -/

theorem forall_of_fillSlot {α : Type} {P : α → Prop} {slot next : Option α} {name : String}
    {decode : Source → Except Fault α} {value : Source}
    (h : fillSlot slot name decode value = .ok next) (hdecode : ∀ a, decode value = .ok a → P a) :
    ∀ a, next = some a → P a := by
  rw [fillSlot] at h
  split at h
  · cases h
  · obtain ⟨found, hfound, rfl⟩ := map_eq_ok_iff.mp h
    rintro _ ⟨⟩
    exact hdecode found hfound

theorem RecordType.require_eq_ok {α : Type} {type : RecordType} {form : Form} {name : String}
    {slot : Option α} {a : α} (h : type.require form name slot = .ok a) : slot = some a := by
  cases slot with
  | some value =>
    cases h
    rfl
  | none => cases form <;> cases h

/-- What every field keeps, the parts of the whole record have. -/
theorem RecordType.read_keeps {σ : Type} {type : RecordType} {origin : Origin}
    {step : σ → String → Source → Except Fault σ} {start parts : σ} {source : Source} {form : Form}
    {P : σ → Prop} (hsource : source.Printable)
    (hstep : ∀ {parts name value next}, value.Printable → P parts → step parts name value = .ok next →
      P next)
    (hstart : P start) (h : type.read origin step start source = .ok (parts, form)) : P parts := by
  cases source with
  | object fields ended =>
    have hfields := Source.printable_object_iff.mp hsource
    have hvisit : ∀ field ∈ fields, ∀ parts next, P parts → type.visit step parts field = .ok next →
        P next := by
      intro field hfield parts next hparts hnext
      rw [visit] at hnext
      split at hnext
      · cases hnext
      · split at hnext
        · exact hstep (hfields field hfield) hparts hnext
        · split at hnext
          · cases hnext
            exact hparts
          · cases hnext
    obtain ⟨found, hfound, hend⟩ := bind_eq_ok_iff.mp h
    split at hend
    · cases hend
      exact foldlM_keeps hvisit hstart hfound
    · cases hend
  | array items ended =>
    have hitems := Source.printable_array_iff.mp hsource
    obtain ⟨found, hfound, hend⟩ := bind_eq_ok_iff.mp h
    split at hend
    · cases hend
    · split at hend
      · cases hend
        refine foldlM_keeps (fun field hfield _ _ hparts hnext => ?_) hstart hfound
        exact hstep (hitems _ (List.of_mem_zip hfield).2) hparts hnext
      · cases hend
  | _ => cases h

/-- Every entry that is read was decoded from some value. -/
theorem decoded_of_decodeKeyed {α : Type} {decode : Source → Except Fault α} {source : Source}
    {list : KeyedList α} (hsource : source.Printable) (h : Definition.decodeKeyed decode source = .ok list) :
    ∀ entry ∈ list.entries, ∃ value, value.Printable ∧ decode value = .ok entry.2 := by
  obtain ⟨entries, hentries, rfl⟩ := map_eq_ok_iff.mp h
  intro entry hentry
  have hmem := KeyedList.mem_of_mem_ofList hentry
  cases source with
  | object fields ended =>
    obtain ⟨found, hfound, hend⟩ := bind_eq_ok_iff.mp hentries
    split at hend
    · cases hend
      obtain ⟨field, hfield, hdecode⟩ := exists_mem_of_forall₂ (mapM_eq_ok_iff.mp hfound).flip entry hmem
      have hvalue := Source.printable_object_iff.mp hsource field hfield
      obtain ⟨name, value⟩ := field
      cases name with
      | none => cases hdecode
      | some name =>
        obtain ⟨a, ha, rfl⟩ := map_eq_ok_iff.mp hdecode
        exact ⟨value, hvalue, ha⟩
    · cases hend
  | _ => cases hentries

/-- A slot that stays empty gets its default. -/
theorem forall_getD {α : Type} {P : α → Prop} {slot : Option α} {fallback : α}
    (h : ∀ a, slot = some a → P a) (hfallback : P fallback) : P (slot.getD fallback) := by
  cases slot with
  | none => exact hfallback
  | some a => exact h a rfl

/-! ### Traits and members -/

/-- The entries can be written and read where `room` levels of nesting are left. -/
structure KeyedList.Readable (room : Nat) (list : KeyedList Json) : Prop where
  sorted : list.Sorted
  fits : (Json.object list.entries).Fits room

theorem KeyedList.readable_empty {room : Nat} (hroom : 0 < room) : (empty.Readable room) where
  sorted := List.forall_mem_nil _
  fits := Json.fits_object_iff.mpr ⟨hroom, List.forall_mem_nil _⟩

theorem KeyedList.readable_of_decodeKeyed {source : Source} {list : KeyedList Json} {room : Nat}
    (hsource : source.Printable) (h : Definition.decodeKeyed (Source.asJson (room - 1)) source = .ok list) :
    list.Readable (max room 1) := by
  have hvalues : ∀ entry ∈ list.entries, entry.2.Readable (room - 1) := by
    intro entry hentry
    obtain ⟨value, hvalue, hdecode⟩ := decoded_of_decodeKeyed hsource h entry hentry
    exact Source.readable_of_asJson hvalue hdecode
  refine ⟨fun entry hentry => (hvalues entry hentry).sorted,
    Json.fits_object_iff.mpr ⟨by omega, fun entry hentry => ?_⟩⟩
  exact (hvalues entry hentry).fits.mono (by omega)

namespace MemberDefinition

/-- The member can be written and read where `room` levels of nesting are left. -/
structure Readable (room : Nat) (member : MemberDefinition) : Prop where
  sorted : member.traits.Sorted
  fits : member.encode.Fits room

theorem readable_of_traits {member : MemberDefinition} {room : Nat}
    (h : member.traits.Readable room) : member.Readable (room + 1) := by
  refine ⟨h.sorted, Json.fits_object_iff.mpr ⟨Nat.succ_pos _, ?_⟩⟩
  exact List.forall_mem_cons.mpr ⟨Json.fits_string _ _, List.forall_mem_singleton.mpr h.fits⟩

/-- What was collected so far of a member can be written and read again. -/
def Parts.Readable (room : Nat) (parts : Parts) : Prop :=
  ∀ traits, parts.traits = some traits → traits.Readable (max room 1)

theorem Parts.Readable.step {parts next : Parts} {room : Nat} {name : String} {source : Source}
    (hsource : source.Printable) (hparts : parts.Readable room) (h : parts.step room name source = .ok next) :
    next.Readable room := by
  rw [Parts.step] at h
  split at h
  · obtain ⟨slot, _, h⟩ := bind_eq_ok_iff.mp h
    cases h
    exact hparts
  · obtain ⟨slot, hslot, h⟩ := bind_eq_ok_iff.mp h
    cases h
    exact forall_of_fillSlot hslot fun _ => KeyedList.readable_of_decodeKeyed hsource

theorem readable_of_decode {source : Source} {room : Nat} {member : MemberDefinition}
    (hsource : source.Printable) (h : decode room source = .ok member) : member.Readable (max room 2) := by
  obtain ⟨⟨parts, form⟩, hread, h⟩ := bind_eq_ok_iff.mp h
  obtain ⟨target, _, h⟩ := bind_eq_ok_iff.mp h
  cases h
  have hkept : parts.Readable (room - 1) := by
    refine RecordType.read_keeps hsource (fun hvalue hparts => hparts.step hvalue) ?_ hread
    intro traits htraits
    cases htraits
  have htraits := forall_getD hkept (KeyedList.readable_empty (by omega))
  have hroom : max (room - 1) 1 + 1 = max room 2 := by omega
  exact hroom ▸ readable_of_traits htraits

end MemberDefinition

/-! ### Definitions -/

theorem Reference.fits_encode (reference : Reference) {room : Nat} (hroom : 0 < room) :
    reference.encode.Fits room :=
  Json.fits_object_iff.mpr ⟨hroom, List.forall_mem_singleton.mpr (Json.fits_string _ _)⟩

theorem fits_encodeReferences (references : List Reference) {room : Nat} (hroom : 1 < room) :
    (encodeReferences references).Fits room := by
  refine Json.fits_array_iff.mpr ⟨Nat.lt_of_succ_lt hroom, List.forall_mem_map.mpr fun reference _ => ?_⟩
  exact reference.fits_encode (Nat.sub_pos_of_lt hroom)

theorem fits_encodeEntries_iff {α : Type} {encode : α → Json} {list : KeyedList α} {room : Nat} :
    (encodeEntries encode list).Fits room ↔
      0 < room ∧ ∀ entry ∈ list.entries, (encode entry.2).Fits (room - 1) := by
  rw [encodeEntries, Json.fits_object_iff, List.forall_mem_map]

theorem fits_encodeOption {α : Type} {encode : α → Json} {room : Nat} (h : ∀ a, (encode a).Fits room)
    (value : Option α) : (encodeOption encode value).Fits room := by
  cases value with
  | none => exact Json.fits_null room
  | some a => exact h a

namespace Definition

/-- What was collected so far of a definition can be written and read again. -/
structure Parts.Readable (room : Nat) (parts : Parts) : Prop where
  members : ∀ members, parts.members = some members →
    ∀ entry ∈ members.entries, entry.2.Readable (max (room - 1) 2)
  member : ∀ member, parts.member = some member → member.Readable (max room 2)
  key : ∀ key, parts.key = some key → key.Readable (max room 2)
  value : ∀ value, parts.value = some value → value.Readable (max room 2)
  traits : ∀ traits, parts.traits = some traits → traits.Readable (max room 1)

theorem Parts.Readable.step {parts next : Parts} {room : Nat} {name : String} {source : Source}
    (hsource : source.Printable) (hparts : parts.Readable room) (h : parts.step room name source = .ok next) :
    next.Readable room := by
  unfold Parts.step at h
  split at h <;> obtain ⟨slot, hslot, h⟩ := bind_eq_ok_iff.mp h <;> cases h
  case h_1 =>
    refine { hparts with members := forall_of_fillSlot hslot fun members hmembers entry hentry => ?_ }
    obtain ⟨value, hvalue, hdecode⟩ := decoded_of_decodeKeyed hsource hmembers entry hentry
    exact MemberDefinition.readable_of_decode hvalue hdecode
  case h_2 =>
    have hmember := forall_of_fillSlot hslot fun _ => MemberDefinition.readable_of_decode hsource
    exact { hparts with member := hmember }
  case h_3 =>
    have hkey := forall_of_fillSlot hslot fun _ => MemberDefinition.readable_of_decode hsource
    exact { hparts with key := hkey }
  case h_4 =>
    have hvalue := forall_of_fillSlot hslot fun _ => MemberDefinition.readable_of_decode hsource
    exact { hparts with value := hvalue }
  case h_12 =>
    have htraits := forall_of_fillSlot hslot fun _ => KeyedList.readable_of_decodeKeyed hsource
    exact { hparts with traits := htraits }
  -- the other fields hold no JSON values
  all_goals exact { hparts with }

/-- The fields of a body can be written where its parts were read. -/
theorem Parts.Readable.body {parts : Parts} {room : Nat} {tag : Tag} {form : RecordType.Form}
    {body : Body} (hparts : parts.Readable room) (h : parts.body tag form = .ok body) :
    (∀ entry ∈ body.memberDefinitions, entry.2.traits.Sorted) ∧
      ∀ field ∈ body.encodeFields, field.2.Fits (max room 3) := by
  have hreference (reference : Reference) : reference.encode.Fits (max room 3) :=
    reference.fits_encode (by omega)
  have hreferences (references : List Reference) : (encodeReferences references).Fits (max room 3) :=
    fits_encodeReferences references (by omega)
  cases tag with
  | simple type | apply =>
    cases h
    exact ⟨List.forall_mem_nil _, List.forall_mem_nil _⟩
  | group type =>
    cases h
    have hmembers : ∀ entry ∈ (parts.members.getD .empty).entries,
        entry.2.Readable (max (room - 1) 2) := forall_getD hparts.members (List.forall_mem_nil _)
    refine ⟨fun entry hentry => (hmembers entry hentry).sorted, List.forall_mem_singleton.mpr ?_⟩
    refine fits_encodeEntries_iff.mpr ⟨by omega, fun entry hentry => ?_⟩
    exact (hmembers entry hentry).fits.mono (by omega)
  | list | set =>
    obtain ⟨member, hmember, h⟩ := bind_eq_ok_iff.mp h
    cases h
    have hmember := hparts.member member (RecordType.require_eq_ok hmember)
    exact ⟨List.forall_mem_singleton.mpr hmember.sorted,
      List.forall_mem_singleton.mpr (hmember.fits.mono (by omega))⟩
  | map =>
    obtain ⟨key, hkey, h⟩ := bind_eq_ok_iff.mp h
    obtain ⟨value, hvalue, h⟩ := bind_eq_ok_iff.mp h
    cases h
    have hkey := hparts.key key (RecordType.require_eq_ok hkey)
    have hvalue := hparts.value value (RecordType.require_eq_ok hvalue)
    simp only [Body.memberDefinitions, Body.encodeFields, List.forall_mem_cons]
    exact ⟨⟨hkey.sorted, hvalue.sorted, List.forall_mem_nil _⟩,
      hkey.fits.mono (by omega), hvalue.fits.mono (by omega), List.forall_mem_nil _⟩
  | service =>
    cases h
    simp only [Body.encodeFields, List.forall_mem_cons]
    exact ⟨List.forall_mem_nil _, fits_encodeOption (fun text => Json.fits_string text _) _, hreferences _,
      hreferences _, hreferences _, List.forall_mem_nil _⟩
  | operation =>
    cases h
    simp only [Body.encodeFields, List.forall_mem_cons]
    exact ⟨List.forall_mem_nil _, fits_encodeOption hreference _, fits_encodeOption hreference _, hreferences _,
      List.forall_mem_nil _⟩
  | resource =>
    cases h
    simp only [Body.encodeFields, List.forall_mem_cons]
    have hidentifiers : (encodeEntries Reference.encode (parts.identifiers.getD .empty)).Fits (max room 3) :=
      fits_encodeEntries_iff.mpr ⟨by omega, fun entry _ => Reference.fits_encode _ (by omega)⟩
    exact ⟨List.forall_mem_nil _, hidentifiers, hreferences _, hreferences _, List.forall_mem_nil _⟩

/-- The definition can be written and read where `room` levels of nesting are left. -/
structure Readable (room : Nat) (definition : Definition) : Prop where
  sorted : definition.Sorted
  fits : definition.encode.Fits room

theorem readable_of_decodeBody {room : Nat} {tag : Tag} {source : Source} {definition : Definition}
    (hsource : source.Printable) (h : decodeBody room tag source = .ok definition) :
    definition.Readable (max room 4) := by
  obtain ⟨⟨parts, form⟩, hread, h⟩ := bind_eq_ok_iff.mp h
  obtain ⟨body, hbody, h⟩ := bind_eq_ok_iff.mp h
  cases h
  have hparts : parts.Readable (room - 1) := by
    refine RecordType.read_keeps hsource (fun hvalue hparts => hparts.step hvalue) ?_ hread
    exact ⟨nofun, nofun, nofun, nofun, nofun⟩
  obtain ⟨hmembers, hfields⟩ := hparts.body hbody
  have htraits := forall_getD hparts.traits (KeyedList.readable_empty (by omega))
  refine ⟨⟨htraits.sorted, hmembers⟩, Json.fits_object_iff.mpr ⟨by omega, ?_⟩⟩
  refine List.forall_mem_cons.mpr ⟨Json.fits_string _ _, List.forall_mem_append.mpr ⟨?_, ?_⟩⟩
  · exact fun field hfield => (hfields field hfield).mono (by omega)
  · exact List.forall_mem_singleton.mpr (htraits.fits.mono (by omega))

/-- The fields that are left when the tag was taken out were there before. -/
theorem printable_of_splitTag {room : Nat} {tag last : Option Tag} {done found : List (String × Source)}
    {fields : List (Option String × Source)} (hdone : ∀ field ∈ done, field.2.Printable)
    (hfields : ∀ field ∈ fields, field.2.Printable) (h : splitTag room tag done fields = .ok (last, found)) :
    ∀ field ∈ found, field.2.Printable := by
  induction fields generalizing tag done with
  | nil =>
    cases h
    exact fun field hfield => hdone field (List.mem_reverse.mp hfield)
  | cons field rest ih =>
    obtain ⟨hfield, hrest⟩ := List.forall_mem_cons.mp hfields
    obtain ⟨name, value⟩ := field
    cases name with
    | none => cases h
    | some name =>
      rw [splitTag] at h
      split at h
      · split at h
        · cases h
        · obtain ⟨_, _, h⟩ := bind_eq_ok_iff.mp h
          exact ih hdone hrest h
      · split at h
        · exact ih (List.forall_mem_cons.mpr ⟨hfield, hdone⟩) hrest h
        · cases h

theorem readable_of_decode {room : Nat} {source : Source} {definition : Definition}
    (hsource : source.Printable) (h : decode room source = .ok definition) :
    definition.Readable (max room 4) := by
  unfold decode at h
  split at h
  · obtain ⟨⟨tag, fields⟩, hsplit, h⟩ := bind_eq_ok_iff.mp h
    have hfields := printable_of_splitTag (List.forall_mem_nil _) (Source.printable_object_iff.mp hsource) hsplit
    dsimp only at h
    split at h
    · cases h
    · cases tag with
      | none => cases h
      | some tag =>
        exact readable_of_decodeBody (Source.printable_object_iff.mpr (List.forall_mem_map.mpr hfields)) h
  · cases h
  · obtain ⟨tag, _, h⟩ := bind_eq_ok_iff.mp h
    split at h
    · have hrest := (List.forall_mem_cons.mp (Source.printable_array_iff.mp hsource)).2
      exact readable_of_decodeBody (Source.printable_array_iff.mpr hrest) h
    · cases h
  · cases h

end Definition

/-! ### Documents -/

namespace Document

/-- What was collected so far of a document can be written and read again. -/
structure Parts.Readable (room : Nat) (parts : Parts) : Prop where
  shapes : ∀ shapes, parts.shapes = some shapes →
    ∀ entry ∈ shapes.entries, entry.2.Readable (max (room - 1) 4)
  metadata : ∀ metadata, parts.metadata = some metadata → metadata.Readable (max room 1)

theorem Parts.Readable.step {parts next : Parts} {room : Nat} {name : String} {source : Source}
    (hsource : source.Printable) (hparts : parts.Readable room) (h : parts.step room name source = .ok next) :
    next.Readable room := by
  unfold Parts.step at h
  split at h <;> obtain ⟨slot, hslot, h⟩ := bind_eq_ok_iff.mp h <;> cases h
  · exact { hparts with }
  · refine { hparts with shapes := forall_of_fillSlot hslot fun shapes hshapes entry hentry => ?_ }
    obtain ⟨value, hvalue, hdecode⟩ := decoded_of_decodeKeyed hsource hshapes entry hentry
    exact Definition.readable_of_decode hvalue hdecode
  · have hmetadata := forall_of_fillSlot hslot fun _ => KeyedList.readable_of_decodeKeyed hsource
    exact { hparts with metadata := hmetadata }

/-- The document can be printed and read where `room` levels of nesting are left. -/
structure Printable (room : Nat) (document : Document) : Prop where
  sorted : document.Sorted
  fits : document.encode.Fits room

theorem printable_of_decode {document : Document} {room : Nat} {source : Source}
    (hsource : source.Printable) (h : decode room source = .ok document) : document.Printable (max room 6) := by
  obtain ⟨⟨parts, form⟩, hread, h⟩ := bind_eq_ok_iff.mp h
  obtain ⟨version, _, h⟩ := bind_eq_ok_iff.mp h
  cases h
  have hparts : parts.Readable (room - 1) := by
    refine RecordType.read_keeps hsource (fun hvalue hparts => hparts.step hvalue) ?_ hread
    exact ⟨nofun, nofun⟩
  have hshapes : ∀ entry ∈ (parts.shapes.getD .empty).entries,
      entry.2.Readable (max (room - 1 - 1) 4) := forall_getD hparts.shapes (List.forall_mem_nil _)
  have hmetadata := forall_getD hparts.metadata (KeyedList.readable_empty (by omega))
  refine ⟨⟨fun entry hentry => (hshapes entry hentry).sorted, hmetadata.sorted⟩,
    Json.fits_object_iff.mpr ⟨by omega, ?_⟩⟩
  have hentries : (encodeEntries Definition.encode (parts.shapes.getD .empty)).Fits (max room 6 - 1) := by
    refine fits_encodeEntries_iff.mpr ⟨by omega, fun entry hentry => ?_⟩
    exact (hshapes entry hentry).fits.mono (by omega)
  simp only [List.forall_mem_cons]
  exact ⟨Json.fits_string _ _, hentries, hmetadata.fits.mono (by omega), List.forall_mem_nil _⟩

/-- Every document from a text can be written and read under the same limit. -/
theorem printable_of_read {text : String} {document : Document} (h : read text = .ok document) :
    document.Printable Source.nestingLimit := by
  obtain ⟨found, hfound, h⟩ := bind_eq_ok_iff.mp h
  split at h
  · cases h
    exact printable_of_decode (Source.printable_read text) hfound
  · cases h

/-- A document from a text is written as one that is read again. -/
theorem decode_encode_of_read {text : String} {document : Document} (h : read text = .ok document) :
    decode Source.nestingLimit (.ofJson document.encode) = .ok document :=
  decode_encode (printable_of_read h).sorted (printable_of_read h).fits.depth

end Document

end SmithyKotlin
