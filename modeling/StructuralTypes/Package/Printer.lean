import StructuralTypes.Node.Printer
import StructuralTypes.Package.Basic

/-!
# The text of a package

Three parts under headings of their own: the imports, the type definitions with their nodes and the
class definitions with their fields.

`Package.render` is `pretty_print` of a package.
-/

namespace StructuralTypes

/-- The line of an import: its local name and what it stands for, a question mark if that was not
found. -/
def Import.render (i : Import) : String :=
  line 1 (i.localName.name ++ " -> " ++ i.target.elim "?" PackageId.render)

/-- The lines of a type definition. -/
def TypeDefinition.render (symbols : SymbolTable) (types : TypeTable) (d : TypeDefinition) :
    Except Stop String := do
  let flags := if d.flags.isEmpty then "" else " " ++ d.flags.render
  let head := line 1 ("type " ++ d.name.name ++ " (" ++ d.symbol.render ++ ")" ++ flags)
  return head ++ (← d.node.render symbols types 2)

/-- The lines of a class definition. -/
def ClassDefinition.render (symbols : SymbolTable) (types : TypeTable) (d : ClassDefinition) :
    Except Stop String := do
  let name := (← symbols.find d.symbol).name
  let head := line 1 ("class " ++ name ++ " (" ++ d.symbol.render ++ ")")
  return head ++ (← VariableNode.renderAll 2 symbols types d.fields)

/-- The lines of a package. -/
def Package.render (symbols : SymbolTable) (types : TypeTable) (p : Package) :
    Except Stop String := do
  let typeDefinitions ← p.typeDefinitions.mapM (·.render symbols types)
  let classDefinitions ← p.classDefinitions.mapM (·.render symbols types)
  return "=== Package " ++ p.name ++ " (" ++ p.id.render ++ ") ===\n\n" ++
    "--- Imports ---\n" ++ "".intercalate (p.imports.map Import.render) ++ "\n" ++
    "--- Type Definitions ---\n" ++ "".intercalate typeDefinitions ++ "\n" ++
    "--- Class Definitions ---\n" ++ "".intercalate classDefinitions

end StructuralTypes
