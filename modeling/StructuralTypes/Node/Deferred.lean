import StructuralTypes.Node.Basic
import StructuralTypes.Ty.Table

/-!
# Deferred binding

A node is deferred while some reference in it is typed by a placeholder. The node of an error type
whose detail is a map gets such a reference, and `TypeNode.bindDetail?` later puts the real record
in its place.

`deferred` is `deferred_binding`, `isPlaceholder` is `is_placeholder`, and `bindDetail?` is
`bind_detail`, with the new node for what is changed in place and nothing for `false`.
-/

namespace StructuralTypes

/-- Whether a reference is typed by a placeholder. -/
def TypeReference.isPlaceholder (types : TypeTable) (r : TypeReference) : Except Stop Bool := do
  match r.ty with
  | none => return false
  | some ty => return (← types.find ty).ty = .placeholder

namespace TypeNode

/-- Whether the node still waits for a type to be put in the place of a placeholder. Parts are
looked at from left to right, up to the first that waits. -/
def deferred (types : TypeTable) : TypeNode → Except Stop Bool
  | record node | object node => node.references.anyM (·.isPlaceholder types)
  | plainError .. => return false
  | error _ _ detail => detail.deferred types
  | reference r => r.isPlaceholder types
  | constrained _ base constraint => do
    if ← base.deferred types then return true
    else constraint.deferred types
  | mapConstructor _ => return false

/-- Put a named type in the place of the placeholder of an error node's detail. There is nothing to
do, and no new node, unless the detail is a type constructor applied to a placeholder. -/
def bindDetail? (types : TypeTable) (ty : TypeId) (name : String) :
    TypeNode → Except Stop (Option TypeNode)
  | error span errorTy (constrained detailSpan base (reference r)) => do
    if ← r.isPlaceholder types then
      let bound := { r with name := { r.name with name }, ty := some ty }
      return some (error span errorTy (constrained detailSpan base (reference bound)))
    else return none
  | _ => return none

end TypeNode

end StructuralTypes
