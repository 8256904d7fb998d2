import SmithyKotlin.Proofs.Json.Carried
import SmithyKotlin.Proofs.Outcome

/-!
# Decoding what was written

* `Source.asList_ofJson`, `Source.asEntries_ofJson`, `Source.asOption_ofJson`: a list, an object of entries and an
  optional value are read back from what is written of them, as soon as their parts are.
* `RecordType.read_ofJson`: a record is read back once its fields are collected one by one.

All of these are about trees; no text is written or read.
-/

namespace SmithyKotlin

namespace Source

theorem ofItems_eq_map (items : List Json) : ofItems items = items.map ofJson := by
  induction items with
  | nil => rfl
  | cons item rest ih => rw [ofItems, ih, List.map_cons]

theorem ofFields_eq_map (fields : List (String × Json)) :
    ofFields fields = fields.map fun field => (some field.1, ofJson field.2) := by
  induction fields with
  | nil => rfl
  | cons field rest ih => rw [ofFields, ih, List.map_cons]

variable {α : Type} {decode : Source → Except Fault α} {encode : α → Json}

theorem asList_ofJson {values : List α}
    (h : ∀ value ∈ values, decode (ofJson (encode value)) = .ok value) :
    asList decode (ofJson (.array (values.map encode))) = .ok values := by
  have hitems : (ofItems (values.map encode)).mapM decode = .ok values := by
    rw [mapM_eq_ok_iff, ofItems_eq_map, List.map_map, List.forall₂_map_left_iff, List.forall₂_same]
    exact h
  rw [ofJson, asList, hitems]
  rfl

theorem asEntries_ofJson {entries : List (String × α)}
    (h : ∀ entry ∈ entries, decode (ofJson (encode entry.2)) = .ok entry.2) :
    asEntries decode (ofJson (.object (entries.map fun entry => (entry.1, encode entry.2))))
      = .ok entries := by
  have hfields : (ofFields (entries.map fun entry => (entry.1, encode entry.2))).mapM
      (decodeField decode) = .ok entries := by
    rw [mapM_eq_ok_iff, ofFields_eq_map, List.map_map, List.forall₂_map_left_iff, List.forall₂_same]
    intro entry hentry
    show (decode (ofJson (encode entry.2))).map (entry.1, ·) = .ok entry
    rw [h entry hentry]
    rfl
  rw [ofJson, asEntries, hfields]
  rfl

/-- A missing value is written as `null`, so no value that is there may be. -/
theorem asOption_ofJson {value : Json} {a : α} (hnull : value.isNull = false)
    (h : decode (ofJson value) = .ok a) : asOption decode (ofJson value) = .ok (some a) := by
  have hmap : (decode (ofJson value)).map some = .ok (some a) := by
    rw [h]
    rfl
  cases value with
  | null => cases hnull
  | _ => exact hmap

end Source

theorem fillSlot_none {α : Type} {name : String} {decode : Source → Except Fault α}
    {value : Source} {a : α} (h : decode value = .ok a) :
    fillSlot none name decode value = .ok (some a) := by
  rw [fillSlot, h]
  rfl

namespace RecordType

variable {σ : Type} {type : RecordType} {step : σ → String → Source → Except Fault σ}

/-- The fields of a record that belong to it are visited one by one. -/
theorem foldlM_visit_ofFields {fields : List (String × Json)} (start : σ)
    (hnames : ∀ field ∈ fields, field.1 ∈ type.fields) :
    (Source.ofFields fields).foldlM (type.visit step) start
      = fields.foldlM (fun parts field => step parts field.1 (.ofJson field.2)) start := by
  induction fields generalizing start with
  | nil => rfl
  | cons field rest ih =>
    obtain ⟨hfield, hrest⟩ := List.forall_mem_cons.mp hnames
    have hstep : type.visit step start (some field.1, .ofJson field.2)
        = step start field.1 (.ofJson field.2) := if_pos (List.contains_iff_mem.mpr hfield)
    rw [Source.ofFields, List.foldlM_cons, List.foldlM_cons, hstep]
    exact congrArg _ (funext fun parts => ih parts hrest)

theorem read_ofJson {origin : Origin} {start parts : σ} {fields : List (String × Json)}
    (hnames : ∀ field ∈ fields, field.1 ∈ type.fields)
    (hsteps : fields.foldlM (fun parts field => step parts field.1 (.ofJson field.2)) start
      = .ok parts) :
    type.read origin step start (.ofJson (.object fields)) = .ok (parts, .named) := by
  rw [Source.ofJson, read, foldlM_visit_ofFields start hnames, hsteps]
  rfl

end RecordType

end SmithyKotlin
