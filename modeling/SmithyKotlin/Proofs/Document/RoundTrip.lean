import SmithyKotlin.Document.Conversion
import SmithyKotlin.Document.Decoder
import SmithyKotlin.Document.Encoder
import SmithyKotlin.Proofs.Collections.KeyedList
import SmithyKotlin.Proofs.Json.Written

/-!
# Documents that are written and read again

What is written of a document is read as the same document, with everything in the same order.

* `Reference.decode_encode`, `MemberDefinition.decode_encode`, `decodeTraits_encode`: the parts, each with one
  equation for its decoder.
* `Definition.foldlM_step_encodeFields`: a definition is collected field by field into the parts that its body is
  then made of; the tag is found in front of them (`Definition.splitTag_encode`).
* `Document.encode_comesBack`: so it is for whole documents, and so for their models.

A document has to have its JSON values in order and must not be nested too deeply.  Each one that was read is like
that (`Document.printable_of_read`, `Document.decode_encode_of_read`).  Here a document is written as a tree;
`Document.read_compact` is about its text.
-/

namespace SmithyKotlin

/-! ### Entries, references and traits -/

theorem decodeKeyed_encodeEntries {α : Type} {decode : Source → Except Fault α} {encode : α → Json}
    {list : KeyedList α}
    (h : ∀ entry ∈ list.entries, decode (.ofJson (encode entry.2)) = .ok entry.2) :
    Definition.decodeKeyed decode (.ofJson (encodeEntries encode list)) = .ok list := by
  rw [Definition.decodeKeyed, encodeEntries, Source.asEntries_ofJson h]
  exact congrArg Except.ok list.ofList_entries

theorem depth_encodeEntries_le_iff {α : Type} {encode : α → Json} {list : KeyedList α} {room : Nat} :
    (encodeEntries encode list).depth ≤ room ↔
      0 < room ∧ ∀ entry ∈ list.entries, (encode entry.2).depth ≤ room - 1 := by
  rw [encodeEntries, Json.depth_object_le_iff, List.forall_mem_map]

theorem Reference.decode_encode (reference : Reference) :
    decode (.ofJson reference.encode) = .ok reference := rfl

theorem asList_encodeReferences (references : List Reference) :
    Source.asList Reference.decode (.ofJson (encodeReferences references)) = .ok references :=
  Source.asList_ofJson fun reference _ => reference.decode_encode

theorem asOption_encodeReference (reference : Option Reference) :
    Source.asOption Reference.decode (.ofJson (encodeOption Reference.encode reference))
      = .ok reference := by
  cases reference with
  | none => rfl
  | some reference => exact Source.asOption_ofJson rfl reference.decode_encode

theorem asOption_encodeText (text : Option String) :
    Source.asOption Source.asString (.ofJson (encodeOption .string text)) = .ok text := by
  cases text with
  | none => rfl
  | some text => exact Source.asOption_ofJson rfl rfl

/-- The values under all names have their objects in order; the names stand as they were written. -/
def KeyedList.Sorted (list : KeyedList Json) : Prop := ∀ entry ∈ list.entries, entry.2.Sorted

instance : DecidablePred KeyedList.Sorted := fun list =>
  inferInstanceAs (Decidable (∀ entry ∈ list.entries, entry.2.Sorted))

theorem decodeKeyed_asJson {list : KeyedList Json} {room : Nat} (hsorted : list.Sorted)
    (hdepth : (Json.object list.entries).depth ≤ room) :
    Definition.decodeKeyed (Source.asJson (room - 1)) (.ofJson (.object list.entries))
      = .ok list := by
  have hplain : Json.object list.entries = encodeEntries id list :=
    congrArg Json.object (List.map_id _).symm
  have hvalues := (Json.depth_object_le_iff.mp hdepth).2
  rw [hplain]
  exact decodeKeyed_encodeEntries fun entry hentry =>
    Source.asJson_ofJson (hsorted entry hentry) (hvalues entry hentry)

theorem decodeTraits_encode {traits : TraitList} {room : Nat} (hsorted : traits.Sorted)
    (hdepth : (encodeTraits traits).depth ≤ room) :
    decodeTraits room (.ofJson (encodeTraits traits)) = .ok traits :=
  decodeKeyed_asJson hsorted hdepth

theorem MemberDefinition.decode_encode {member : MemberDefinition} {room : Nat}
    (hsorted : member.traits.Sorted) (hdepth : member.encode.depth ≤ room) :
    decode room (.ofJson member.encode) = .ok member := by
  have hfields := (Json.depth_object_le_iff.mp hdepth).2
  have htraits := decodeTraits_encode hsorted
    (hfields ("traits", encodeTraits member.traits) (List.mem_cons_of_mem _ List.mem_cons_self))
  have htarget : fillSlot none "target" Source.asString (.ofJson (.string member.target))
      = .ok (some member.target) := rfl
  have hread : recordType.read .buffer (Parts.step (room - 1)) {} (.ofJson member.encode)
      = .ok (⟨some member.target, some member.traits⟩, .named) := by
    refine RecordType.read_ofJson (by simp [recordType]) ?_
    simp [Parts.step, htarget, fillSlot_none htraits, ok_bind]
  rw [decode, hread]
  rfl

/-! ### The fields of a definition -/

theorem Tag.type_not_mem_fields (tag : Tag) : "type" ∉ tag.fields := by
  cases tag <;> simp [Tag.fields]

namespace Body

/-- A definition is written with exactly the fields that its tag has. -/
theorem names_encodeFields (body : Body) (traits : Json) :
    (body.encodeFields ++ [("traits", traits)]).map Prod.fst = body.tag.fields := by
  cases body <;> rfl

end Body

namespace Definition

/-- The parts that the fields of a body are collected into. -/
def Parts.ofBody : Body → Parts
  | .simple _ => {}
  | .group _ members => { members := some members }
  | .list member => { member := some member }
  | .set member => { member := some member }
  | .map key value => { key := some key, value := some value }
  | .service version operations resources errors =>
    { version := some version, operations := some operations, resources := some resources,
      errors := some errors }
  | .operation input output errors =>
    { input := some input, output := some output, errors := some errors }
  | .resource identifiers operations resources =>
    { identifiers := some identifiers, operations := some operations, resources := some resources }
  | .apply => {}

theorem Parts.body_ofBody (body : Body) (traits : TraitList) (form : RecordType.Form) :
    Parts.body { Parts.ofBody body with traits := some traits } body.tag form = .ok body := by
  cases body <;> rfl

/-- The fields of a body are collected one by one, each into its own slot. -/
theorem foldlM_step_encodeFields {body : Body} {room : Nat}
    (hsorted : ∀ entry ∈ body.memberDefinitions, entry.2.traits.Sorted)
    (hdepth : ∀ field ∈ body.encodeFields, field.2.depth ≤ room) :
    body.encodeFields.foldlM (fun parts field => Parts.step room parts field.1 (.ofJson field.2)) {}
      = .ok (Parts.ofBody body) := by
  cases body with
  | simple type => rfl
  | group type members =>
    have hobject := hdepth (_, encodeEntries MemberDefinition.encode members) List.mem_cons_self
    have hentries := (depth_encodeEntries_le_iff.mp hobject).2
    have hmembers : decodeKeyed (MemberDefinition.decode (room - 1))
        (.ofJson (encodeEntries MemberDefinition.encode members)) = .ok members :=
      decodeKeyed_encodeEntries fun entry hentry =>
        MemberDefinition.decode_encode (hsorted entry hentry) (hentries entry hentry)
    simp only [Body.encodeFields, List.foldlM_cons, List.foldlM_nil, Parts.step, ok_bind,
      fillSlot_none hmembers]
    rfl
  | list member | set member =>
    have hmember := MemberDefinition.decode_encode (hsorted (_, member) List.mem_cons_self)
      (hdepth (_, member.encode) List.mem_cons_self)
    simp only [Body.encodeFields, List.foldlM_cons, List.foldlM_nil, Parts.step, ok_bind,
      fillSlot_none hmember]
    rfl
  | map key value =>
    have hkey := MemberDefinition.decode_encode (hsorted (_, key) List.mem_cons_self)
      (hdepth (_, key.encode) List.mem_cons_self)
    have hvalue := MemberDefinition.decode_encode
      (hsorted (_, value) (List.mem_cons_of_mem _ List.mem_cons_self))
      (hdepth (_, value.encode) (List.mem_cons_of_mem _ List.mem_cons_self))
    simp only [Body.encodeFields, List.foldlM_cons, List.foldlM_nil, Parts.step, ok_bind, pure_bind,
      fillSlot_none hkey, fillSlot_none hvalue]
    rfl
  | service version operations resources errors =>
    simp only [Body.encodeFields, List.foldlM_cons, List.foldlM_nil, Parts.step, ok_bind, pure_bind,
      fillSlot_none (asOption_encodeText _), fillSlot_none (asList_encodeReferences _)]
    rfl
  | operation input output errors =>
    simp only [Body.encodeFields, List.foldlM_cons, List.foldlM_nil, Parts.step, ok_bind, pure_bind,
      fillSlot_none (asOption_encodeReference _), fillSlot_none (asList_encodeReferences _)]
    rfl
  | resource identifiers operations resources =>
    have hidentifiers : decodeKeyed Reference.decode
        (.ofJson (encodeEntries Reference.encode identifiers)) = .ok identifiers :=
      decodeKeyed_encodeEntries fun entry _ => entry.2.decode_encode
    simp only [Body.encodeFields, List.foldlM_cons, List.foldlM_nil, Parts.step, ok_bind, pure_bind,
      fillSlot_none hidentifiers, fillSlot_none (asList_encodeReferences _)]
    rfl
  | apply => rfl

/-- Behind the tag the fields of a definition are passed on as they are. -/
theorem splitTag_ofFields {room : Nat} {tag : Tag} {done : List (String × Source)}
    {fields : List (String × Json)} (hnames : ∀ field ∈ fields, field.1 ≠ "type")
    (hdepth : ∀ field ∈ fields, field.2.depth ≤ room) :
    splitTag room (some tag) done (Source.ofFields fields)
      = .ok (some tag, done.reverse ++ fields.map fun field => (field.1, .ofJson field.2)) := by
  induction fields generalizing done with
  | nil => rw [Source.ofFields, splitTag, List.map_nil, List.append_nil]
  | cons field rest ih =>
    obtain ⟨hname, hnames⟩ := List.forall_mem_cons.mp hnames
    obtain ⟨hfield, hdepth⟩ := List.forall_mem_cons.mp hdepth
    rw [Source.ofFields, splitTag, if_neg hname, if_pos (Source.isSome_toJson?_ofJson hfield),
      ih hnames hdepth, List.reverse_cons, List.append_assoc]
    rfl

/-- The values of all traits in the definition have their objects in order. -/
@[mk_iff]
structure Sorted (definition : Definition) : Prop where
  traits : definition.traits.Sorted
  members : ∀ entry ∈ definition.body.memberDefinitions, entry.2.traits.Sorted

instance : DecidablePred Sorted := fun definition => decidable_of_iff _ definition.sorted_iff.symm

variable {definition : Definition} {room : Nat} (hsorted : definition.Sorted)
  (hdepth : definition.encode.depth ≤ room)

include hsorted hdepth

theorem decodeBody_encode : decodeBody room definition.body.tag (.ofJson (.object
    (definition.body.encodeFields ++ [("traits", encodeTraits definition.traits)])))
      = .ok definition := by
  have hfields := (List.forall_mem_cons.mp (Json.depth_object_le_iff.mp hdepth).2).2
  obtain ⟨hbody, htraits⟩ := List.forall_mem_append.mp hfields
  have htraits := decodeTraits_encode hsorted.traits (htraits _ List.mem_cons_self)
  have hread : (recordType definition.body.tag).read .buffer (Parts.step (room - 1)) {}
      (.ofJson (.object (definition.body.encodeFields ++
        [("traits", encodeTraits definition.traits)])))
      = .ok ({ Parts.ofBody definition.body with traits := some definition.traits }, .named) := by
    refine RecordType.read_ofJson (fun field hfield => ?_) ?_
    · show field.1 ∈ definition.body.tag.fields
      rw [← definition.body.names_encodeFields (encodeTraits definition.traits)]
      exact List.mem_map_of_mem hfield
    · -- the traits are written behind the body, whose fields leave their slot free
      have hfree : (Parts.ofBody definition.body).traits = none := by cases definition.body <;> rfl
      rw [List.foldlM_append, foldlM_step_encodeFields hsorted.members hbody]
      simp only [List.foldlM_cons, List.foldlM_nil, ok_bind, Parts.step, hfree, fillSlot_none htraits]
      rfl
  rw [decodeBody, hread, ok_bind]
  simp only [Parts.body_ofBody, ok_bind]
  rfl

omit hsorted in
/-- What is read behind the tag is what was written behind it. -/
theorem splitTag_encode : splitTag (room - 1) none [] (Source.ofFields
    (("type", .string definition.body.tag.name) ::
      (definition.body.encodeFields ++ [("traits", encodeTraits definition.traits)])))
    = .ok (some definition.body.tag,
        (definition.body.encodeFields ++ [("traits", encodeTraits definition.traits)]).map
          fun field => (field.1, .ofJson field.2)) := by
  have hfields := (List.forall_mem_cons.mp (Json.depth_object_le_iff.mp hdepth).2).2
  have hnames := definition.body.names_encodeFields (encodeTraits definition.traits)
  generalize definition.body.encodeFields ++ [("traits", encodeTraits definition.traits)] = fields
    at hfields hnames
  have htag : decodeTag (.string definition.body.tag.name) = .ok definition.body.tag := by
    rw [decodeTag, Tag.ofName?_name]
    rfl
  rw [Source.ofFields, splitTag, if_pos rfl, Source.ofJson, htag]
  refine splitTag_ofFields (fun field hfield htype => ?_) hfields
  -- no other field can be taken for the tag
  have hmem : field.1 ∈ definition.body.tag.fields := hnames ▸ List.mem_map_of_mem hfield
  exact Tag.type_not_mem_fields _ (htype ▸ hmem)

theorem decode_encode : decode room (.ofJson definition.encode) = .ok definition := by
  have hsplit := splitTag_encode hdepth
  have hbody := decodeBody_encode hsorted hdepth
  rw [Source.ofJson, Source.ofFields_eq_map] at hbody
  rw [Definition.encode, Source.ofJson, decode, hsplit]
  simp only [ok_bind, List.map_map]
  exact hbody

end Definition

/-! ### Documents -/

namespace Document

/-- The JSON values in the document have their objects in order. -/
@[mk_iff]
structure Sorted (document : Document) : Prop where
  shapes : ∀ entry ∈ document.shapes.entries, entry.2.Sorted
  metadata : document.metadata.Sorted

instance : DecidablePred Sorted := fun document => decidable_of_iff _ document.sorted_iff.symm

theorem decode_encode {document : Document} (hsorted : document.Sorted) {room : Nat}
    (hdepth : document.encode.depth ≤ room) :
    decode room (.ofJson document.encode) = .ok document := by
  obtain ⟨hversion, hfields⟩ := List.forall_mem_cons.mp (Json.depth_object_le_iff.mp hdepth).2
  obtain ⟨hshapes, hfields⟩ := List.forall_mem_cons.mp hfields
  obtain ⟨hmetadata, _⟩ := List.forall_mem_cons.mp hfields
  have hversion : fillSlot none "smithy" Source.asString (.ofJson (.string document.version))
      = .ok (some document.version) := rfl
  have hentries := (depth_encodeEntries_le_iff.mp hshapes).2
  have hshapes : Definition.decodeKeyed (Definition.decode (room - 1 - 1))
      (.ofJson (encodeEntries Definition.encode document.shapes)) = .ok document.shapes :=
    decodeKeyed_encodeEntries fun entry hentry =>
      Definition.decode_encode (hsorted.shapes entry hentry) (hentries entry hentry)
  have hmetadata := decodeKeyed_asJson hsorted.metadata hmetadata
  have hread : recordType.read .text (Parts.step (room - 1)) {} (.ofJson document.encode)
      = .ok (⟨some document.version, some document.shapes, some document.metadata⟩, .named) := by
    refine RecordType.read_ofJson (by simp [recordType]) ?_
    simp only [List.foldlM_cons, List.foldlM_nil, Parts.step, ok_bind, pure_bind, hversion,
      fillSlot_none hshapes, fillSlot_none hmetadata]
    rfl
  rw [decode, hread]
  rfl

/-- What is written of a document is read as the same document, with its shapes, members, traits and
metadata in the same order, wherever there is room for its nesting.  So it becomes the same model or
fails with the same error.  The JSON values in it have their objects in order, which is the only form
that a value can have once it was read.  Every document from a text has that order and leaves that room
(`printable_of_read`), and so comes back from its own encoding (`decode_encode_of_read`). -/
theorem encode_comesBack (document : Document) (hsorted : document.Sorted) {room : Nat}
    (hdepth : document.encode.depth ≤ room) :
    decode room (.ofJson document.encode) = .ok document ∧
      ((decode room (.ofJson document.encode)).mapError .malformedDocument >>= toModel)
        = document.toModel := by
  have hdocument := decode_encode hsorted hdepth
  refine ⟨hdocument, ?_⟩
  rw [hdocument]
  rfl

/-- Definitions with most of the tags, their names against the alphabet, and a trait that holds an
object. -/
def catalog : Document where
  version := "2.0"
  shapes := ⟨[
    ("com.a#Shelf$books", ⟨.apply, ⟨[(Trait.documentation, .string "In order")], by decide⟩⟩),
    ("com.a#Shelf", ⟨.group .struct ⟨[
      ("width", ⟨"smithy.api#Integer", ⟨[("smithy.api#range", Json.emptyObject)], by decide⟩⟩),
      ("books", ⟨"com.a#Books", {}⟩)], by decide⟩, {}⟩),
    ("com.a#Books", ⟨.list ⟨"com.a#Isbn", {}⟩, {}⟩),
    ("com.a#Isbn", ⟨.simple .string, ⟨[
      ("com.a#format", .object [("digits", .number (.integer 13)), ("groups", .array [.null])]),
      ("com.a#checked", .bool true)], by decide⟩⟩),
    ("com.a#Index", ⟨.map ⟨"com.a#Isbn", {}⟩ ⟨"com.a#Shelf", {}⟩, {}⟩),
    ("com.a#Library", ⟨.service none [⟨"com.a#Lend"⟩] [⟨"com.a#Book"⟩] [], {}⟩),
    ("com.a#Lend", ⟨.operation (some ⟨"com.a#Shelf"⟩) none [], {}⟩),
    ("com.a#Book", ⟨.resource ⟨[("isbn", ⟨"com.a#Isbn"⟩)], by decide⟩ [] [], {}⟩)], by decide⟩
  metadata := ⟨[("owner", .string "us"), ("area", .object [("floor", .number (.integer 2))])],
    by decide⟩

theorem encode_comesBack_catalog : catalog.Sorted ∧ catalog.encode.depth ≤ Source.nestingLimit ∧
    decode Source.nestingLimit (.ofJson catalog.encode) = .ok catalog ∧
      ((decode Source.nestingLimit (.ofJson catalog.encode)).mapError .malformedDocument >>= toModel)
        = catalog.toModel := by
  have hsorted : catalog.Sorted := by decide +kernel
  have hdepth : catalog.encode.depth ≤ Source.nestingLimit := by decide +kernel
  exact ⟨hsorted, hdepth, encode_comesBack catalog hsorted hdepth⟩

end Document

end SmithyKotlin
