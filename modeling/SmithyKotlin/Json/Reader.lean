import SmithyKotlin.Json.Lexeme

/-!
# Reading JSON

`Source.Reading` takes the lexemes of a text one by one (`Reading.step`) and keeps a stack of the arrays and objects
that are still open.  When a lexeme does not fit, or the text ends too early, everything that is open is closed as
it stands and marked as not ended (`Reading.breakOff`).

`SourceText.read` reads a whole text and notes whether anything follows the value, `Json.parse?` reads a text that
has to be one JSON value.  Reading itself does not limit the nesting.
-/

namespace SmithyKotlin

namespace Source

/-- An array or object that is open around the place of reading, its parts in reverse order. -/
inductive Frame where
  | items (done : List Source)
  | fields (done : List (Option String × Source)) (name : Option String)

/-- What may come next. -/
inductive Expected where
  | value
  | itemOrEnd
  | itemEnd (done : List Source)
  | nameOrEnd
  | name (done : List (Option String × Source))
  | colon (done : List (Option String × Source)) (name : Option String)
  | fieldEnd (done : List (Option String × Source))
  | nothing (document : Source)

structure Reading where
  expected : Expected
  frames : List Frame

/-- Puts a finished value where it belongs. -/
def deliver (value : Source) : List Frame → Reading
  | [] => ⟨.nothing value, []⟩
  | .items done :: frames => ⟨.itemEnd (value :: done), frames⟩
  | .fields done name :: frames => ⟨.fieldEnd ((name, value) :: done), frames⟩

/-- The start of a value; `none` when the lexeme starts none. -/
def startValue (lexeme : Lexeme) (frames : List Frame) : Option Reading :=
  match lexeme with
  | .openObject => some ⟨.nameOrEnd, frames⟩
  | .openArray => some ⟨.itemOrEnd, frames⟩
  | .text (some text) => some (deliver (.string text) frames)
  | .text none => some (deliver .unreadable frames)
  | .scalar value => some (deliver value frames)
  | _ => none

/-- One step of reading; `none` when the lexeme does not fit. -/
def Reading.step (reading : Reading) (lexeme : Lexeme) : Option Reading :=
  match reading.expected, lexeme with
  | .value, _ => startValue lexeme reading.frames
  | .itemOrEnd, .closeArray => some (deliver (.array [] true) reading.frames)
  | .itemOrEnd, _ => startValue lexeme (.items [] :: reading.frames)
  | .itemEnd done, .closeArray => some (deliver (.array done.reverse true) reading.frames)
  | .itemEnd done, .comma => some ⟨.value, .items done :: reading.frames⟩
  | .nameOrEnd, .closeObject => some (deliver (.object [] true) reading.frames)
  | .nameOrEnd, .text name => some ⟨.colon [] name, reading.frames⟩
  | .name done, .text name => some ⟨.colon done name, reading.frames⟩
  | .colon done name, .colon => some ⟨.value, .fields done name :: reading.frames⟩
  | .fieldEnd done, .closeObject => some (deliver (.object done.reverse true) reading.frames)
  | .fieldEnd done, .comma => some ⟨.name done, reading.frames⟩
  | _, _ => none

/-- Closes the open arrays and objects around a value without their ends. -/
def unwind (value : Source) : List Frame → Source
  | [] => value
  | .items done :: frames => unwind (.array (value :: done).reverse false) frames
  | .fields done name :: frames => unwind (.object ((name, value) :: done).reverse false) frames

/-- The tree of a text that breaks off here. -/
def Reading.breakOff (reading : Reading) : Source :=
  match reading.expected with
  | .value => unwind .broken reading.frames
  | .itemOrEnd => unwind (.array [] false) reading.frames
  | .itemEnd done => unwind (.array done.reverse false) reading.frames
  | .nameOrEnd => unwind (.object [] false) reading.frames
  | .name done => unwind (.object done.reverse false) reading.frames
  | .colon done name => unwind (.object ((name, .broken) :: done).reverse false) reading.frames
  | .fieldEnd done => unwind (.object done.reverse false) reading.frames
  | .nothing document => document

/-- The tree read from the lexemes, and whether nothing follows it in the text. -/
def Reading.run (reading : Reading) : List Lexeme → Source × Bool
  | [] => (reading.breakOff, true)
  | lexeme :: rest =>
    match reading.step lexeme with
    | some next => next.run rest
    | none => (reading.breakOff, false)

end Source

/-- A JSON text: the document in it, and whether the text ends after the document. -/
structure SourceText where
  document : Source
  atEnd : Bool

def SourceText.read (text : String) : SourceText :=
  let (document, atEnd) := Source.Reading.run ⟨.value, []⟩ (Lexeme.ofText text.toList)
  ⟨document, atEnd⟩

/-- The value of a text that is one JSON document, nested at most `Source.nestingLimit` deep. -/
def Json.parse? (text : String) : Option Json :=
  let source := SourceText.read text
  if source.atEnd then source.document.toJson? Source.nestingLimit else none

end SmithyKotlin
