import StructuralTypes.Node.Basic
import StructuralTypes.Ty.Display

/-!
# The text of a type node

One line per node, part and field, with two blanks for each level of nesting.

`TypeNode.render` is `pretty_print` of a node.
-/

namespace StructuralTypes

/-- The blanks in front of a line. -/
def indentation (level : Nat) : String := "".pushn ' ' (2 * level)

/-- A line of its own at a level of nesting. -/
def line (level : Nat) (text : String) : String := indentation level ++ text ++ "\n"

/-- The line of a declared field. -/
def VariableNode.render (level : Nat) (symbols : SymbolTable) (types : TypeTable)
    (v : VariableNode) : Except Stop String :=
  return line level (v.name.name ++ ": " ++ (← types.display symbols v.ty))

/-- The lines of declared fields. -/
def VariableNode.renderAll (level : Nat) (symbols : SymbolTable) (types : TypeTable)
    (fields : List VariableNode) : Except Stop String :=
  return "".intercalate (← fields.mapM fun f => f.render level symbols types)

/-- The lines of a record or object node, which begin with its title. -/
def StructureNode.render (title : String) (level : Nat) (symbols : SymbolTable)
    (types : TypeTable) (node : StructureNode) : Except Stop String := do
  let head := line level (if node.sealed then title ++ " sealed" else title)
  let references := node.references.map fun r => line (level + 1) ("*" ++ r.qualifiedName)
  let fields ← VariableNode.renderAll (level + 1) symbols types node.fields
  let initializer := node.initializer.elim "" fun f => line (level + 1) ("init " ++ f.name.name)
  return head ++ "".intercalate references ++ fields ++ initializer

namespace TypeNode

/-- The lines of a node at a level of nesting. -/
def render (symbols : SymbolTable) (types : TypeTable) : Nat → TypeNode → Except Stop String
  | level, record node => node.render "Record" level symbols types
  | level, object node => node.render "Object" level symbols types
  | level, plainError .. => return line level "Error"
  | level, error _ _ detail =>
    return line level "Error" ++ (← render symbols types (level + 1) detail)
  | level, reference r => return line level ("Ref " ++ r.qualifiedName)
  | level, constrained _ base constraint =>
    return line level "Constrained" ++ (← render symbols types (level + 1) base) ++
      (← render symbols types (level + 1) constraint)
  | level, mapConstructor _ => return line level "Map"

end TypeNode

end StructuralTypes
