import SmithyKotlin.Json.Fault
import SmithyKotlin.Json.Reader

/-!
# Decoding

Values of known types from what was read.  Parts are visited in the order in which they were written, and the first
`Fault` counts.

* `asString`, `asOption`, `asList`, `asEntries` and `asJson` decode values of one shape.
* `RecordType.read` decodes a record, written as an object of its fields or as an array of them in order.  An object
  may hold other fields, which are skipped (`RecordType.visit`).
* `fillSlot` keeps a field from being given twice, `RecordType.require` asks for one that has to be there.

Which error an array that is too long gives depends on where it comes from (`Origin`).
-/

namespace SmithyKotlin

namespace Source

/-- What a value looks like in a message; nothing can be said of one that cannot be read. -/
def seen? : Source → Option Seen
  | null => some .null
  | bool value => some (.bool value)
  | number value => some (.number value)
  | string value => some (.string value)
  | array _ _ => some .sequence
  | object _ _ => some .map
  | unreadable => none
  | broken => none

def notA (expected : String) (source : Source) : Fault :=
  source.seen?.elim .malformed fun seen => .wrongType seen expected

def asString : Source → Except Fault String
  | string value => .ok value
  | source => .error (source.notA "a string")

def asBool : Source → Except Fault Bool
  | bool value => .ok value
  | source => .error (source.notA "a boolean")

def asOption {α : Type} (decode : Source → Except Fault α) : Source → Except Fault (Option α)
  | null => .ok none
  | source => (decode source).map some

/-- Any JSON value, nested at most `room` deep. -/
def asJson (room : Nat) (source : Source) : Except Fault Json :=
  (source.toJson? room).elim (.error .malformed) .ok

def asList {α : Type} (decode : Source → Except Fault α) : Source → Except Fault (List α)
  | array items ended => do
    let values ← items.mapM decode
    if ended then return values else .error .malformed
  | source => .error (source.notA "a sequence")

def decodeField {α : Type} (decode : Source → Except Fault α) :
    Option String × Source → Except Fault (String × α)
  | (none, _) => .error .malformed
  | (some name, value) => (decode value).map (name, ·)

/-- The entries of an object, all of one type. -/
def asEntries {α : Type} (decode : Source → Except Fault α) :
    Source → Except Fault (List (String × α))
  | object fields ended => do
    let entries ← fields.mapM (decodeField decode)
    if ended then return entries else .error .malformed
  | source => .error (source.notA "a map")

end Source

/-- Where a value to be decoded comes from; it decides what an array that is too long is. -/
inductive Origin where
  /-- The text itself, read as it is decoded. -/
  | text
  /-- A part of a text that was read whole before. -/
  | buffer
  /-- A JSON value. -/
  | value
  deriving DecidableEq, Repr

def Origin.tooLong (origin : Origin) (length fields : Nat) : Fault :=
  match origin with
  | text => .malformed
  | buffer => .wrongLength length (Fault.elements fields ++ " in sequence")
  | value => .wrongLength length "fewer elements in array"

/-- The name of a record in messages and the names of its fields in order. -/
structure RecordType where
  title : String
  fields : List String

namespace RecordType

/-- Visits one field of an object: a field of another name only has to be complete. -/
def visit {σ : Type} (type : RecordType) (step : σ → String → Source → Except Fault σ)
    (parts : σ) (field : Option String × Source) : Except Fault σ :=
  match field.1 with
  | none => .error .malformed
  | some name =>
    if type.fields.contains name then step parts name field.2
    else if field.2.isComplete then .ok parts else .error .malformed

/-- How a record was written. -/
inductive Form where
  | named
  | positional
  deriving DecidableEq, Repr

/-- Collects the parts of a record with `step`, which gets the name of a field and its value. -/
def read {σ : Type} (type : RecordType) (origin : Origin)
    (step : σ → String → Source → Except Fault σ) (start : σ) :
    Source → Except Fault (σ × Form)
  | .object fields ended => do
    let parts ← fields.foldlM (type.visit step) start
    if ended then return (parts, .named) else .error .malformed
  | .array items ended => do
    let parts ← (type.fields.zip items).foldlM (fun parts field => step parts field.1 field.2) start
    if type.fields.length < items.length then
      .error (origin.tooLong items.length type.fields.length)
    else if ended then return (parts, .positional)
    else .error .malformed
  | source => .error (source.notA type.title)

/-- The value of a field that has to be there. -/
def require {α : Type} (type : RecordType) (form : Form) (name : String) (slot : Option α) :
    Except Fault α :=
  match slot, form with
  | some value, _ => .ok value
  | none, .named => .error (.missingField name)
  | none, .positional =>
    .error (.wrongLength (type.fields.idxOf name)
      (type.title ++ " with " ++ Fault.elements type.fields.length))

end RecordType

/-- Decodes a field into its slot, which has to be free. -/
def fillSlot {α : Type} (slot : Option α) (name : String) (decode : Source → Except Fault α)
    (value : Source) : Except Fault (Option α) :=
  if slot.isSome then .error (.duplicateField name) else (decode value).map some

end SmithyKotlin
