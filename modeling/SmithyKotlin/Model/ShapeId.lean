import SmithyKotlin.Text.Blank

/-!
# Shape ids

The id of a shape is `namespace#name`, that of a member `namespace#name$member`.  A `ShapeId` is kept as its text;
its parts are what stands around the first `#` (`namespace?`) and, behind that, around the first `$` (`name`,
`member?`).

`withMember` replaces everything behind the first `$` of the whole text.  Where a namespace has a `$`, that is not
the one in front of a member; ids without one there are treated in `Proofs/Model/Address`.
-/

namespace SmithyKotlin

structure ShapeId where
  text : String
  deriving DecidableEq, Repr, Inhabited

namespace ShapeId

theorem text_inj {a b : ShapeId} : a.text = b.text ↔ a = b := by
  cases a; cases b; simp

/-- What stands before the first `#`. -/
def namespace? (id : ShapeId) : Option String := (Text.cut? '#' id.text).map (·.1)

/-- What stands behind the first `#`; all of an id without `#`. -/
def localPart (id : ShapeId) : String := (Text.cut? '#' id.text).elim id.text (·.2)

/-- The name of the shape, without namespace and member. -/
def name (id : ShapeId) : String := Text.before '$' id.localPart

/-- The name of the member, for an id with namespace and member. -/
def member? (id : ShapeId) : Option String :=
  if id.namespace?.isSome then (Text.cut? '$' id.localPart).map (·.2) else none

/-- The id of a member of the shape; a member named before is replaced. -/
def withMember (id : ShapeId) (member : String) : ShapeId :=
  ⟨Text.before '$' id.text ++ "$" ++ member⟩

/-- The id of the shape that an id addresses, also when it names a member of it. -/
def container (id : ShapeId) : ShapeId := ⟨id.namespace?.getD "" ++ "#" ++ id.name⟩

/-- Whether an id has a namespace and something behind its `#`. -/
def isAbsolute (id : ShapeId) : Bool :=
  match Text.cut? '#' id.text with
  | some (before, behind) => !before.isEmpty && !behind.isEmpty
  | none => false

end ShapeId

end SmithyKotlin
