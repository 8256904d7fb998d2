import SmithyKotlin.Model.Basic

/-!
# Members that become variants

`Shape.variantMembers` are the members of a union in the order of their names.  In an event stream, members that
target errors are left out (`keepsMember`): such an event is thrown while the stream is read.  The target of every
member has to be in the model, also of one that is left out.
-/

namespace SmithyKotlin.Shape

/-- Whether a member with the given target becomes a variant of the union. -/
def keepsMember (union target : Shape) : Bool := !(union.isEventStream && target.isError)

def byName (a b : Member) : Bool := a.name ≤ b.name

/-- The members that become variants; the target of every member has to be in the model. -/
def variantMembers (union : Shape) (model : Model) : Except CodegenError (List Member) := do
  let resolved ← union.members.mapM fun member =>
    (model.find member.target).map fun target => (member, target)
  let kept := resolved.filter fun (_, target) => union.keepsMember target
  return (kept.map (·.1)).mergeSort byName

end SmithyKotlin.Shape
