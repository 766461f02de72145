import StructuralTypes.Flags
import StructuralTypes.Handle
import StructuralTypes.Source

/-!
# Type nodes

The tree that stands for the type expression of a definition. Its leaves already know their types
and symbols: a node starts as an empty shell and is filled while its definition is put together.

`StructureNode` is `StructureTypeNode`, with `references` for `type_refs` and `initializer` for
`init_function`; `TypeReference` is `UserDefinedTypeNode`, and `qualifiedName` its `qualified_name`.
Of the cases of `TypeNode`, `plainError` is an error node without a detail and `mapConstructor` the
one `BuiltInRef` there is. `structure?` is `structure`, and `withStructure` is what is written
through `structure_mut`.
-/

namespace StructuralTypes

/-- The declaration of a variable, as a field or as a receiver. -/
structure VariableNode where
  /-- The name. -/
  name : Ident
  /-- The type. -/
  ty : TypeId
  /-- The symbol. -/
  symbol : SymbolId
  /-- The place of the declaration. -/
  span : Span
deriving DecidableEq, Repr

/-- A function that was put together for a structure. -/
structure FunctionNode where
  /-- The name. -/
  name : Ident
  /-- The symbol. -/
  symbol : SymbolId
  /-- Its function type. -/
  ty : TypeId
  /-- The variable that it is called on. -/
  receiver : Option VariableNode
  /-- The type of its result. -/
  returns : TypeId
  /-- Its modifiers. -/
  flags : Flags
  /-- Whether it belongs to a type. -/
  attached : Bool
  /-- The place of the function. -/
  span : Span
deriving DecidableEq, Repr

/-- A type named by the user, through the local name of an import if it is from another package. -/
structure TypeReference where
  /-- The local name of the import, or the empty name. -/
  qualifier : Ident
  /-- The name. -/
  name : Ident
  /-- The type that is meant, once known. -/
  ty : Option TypeId
  /-- The place of the reference. -/
  span : Span
deriving DecidableEq, Repr

/-- The name, behind the qualifier and a colon if there is a qualifier. -/
def TypeReference.qualifiedName (r : TypeReference) : String :=
  if r.qualifier.name.isEmpty then r.name.name else r.qualifier.name ++ ":" ++ r.name.name

/-- The node of a record or object type. -/
structure StructureNode where
  /-- The place of the type. -/
  span : Span := {}
  /-- The type. -/
  ty : Option TypeId := none
  /-- The symbol of the type. -/
  symbol : Option SymbolId := none
  /-- The declarations of the fields, in order. -/
  fields : List VariableNode := []
  /-- The types whose fields are included. -/
  references : List TypeReference := []
  /-- The initializer. -/
  initializer : Option FunctionNode := none
  /-- Whether the type has the declared fields only. -/
  sealed : Bool := false
  /-- Whether later passes need not look at the node again. -/
  analyzed : Bool := false
deriving DecidableEq, Repr, Inhabited

/-- The node of a type. -/
inductive TypeNode
  /-- A record type. -/
  | record (node : StructureNode)
  /-- An object type. -/
  | object (node : StructureNode)
  /-- An error type without a detail. -/
  | plainError (span : Span) (ty : Option TypeId)
  /-- An error type with a detail. -/
  | error (span : Span) (ty : Option TypeId) (detail : TypeNode)
  /-- A type named by the user. -/
  | reference (reference : TypeReference)
  /-- A type constructor applied to a type. -/
  | constrained (span : Span) (base constraint : TypeNode)
  /-- The builtin constructor of map types. -/
  | mapConstructor (span : Span)
deriving DecidableEq, Repr

namespace TypeNode

/-- The place of a node. -/
def span : TypeNode → Span
  | record node | object node => node.span
  | plainError span _ | error span .. => span
  | reference r => r.span
  | constrained span .. => span
  | mapConstructor span => span

/-- The node of a record or object type as such. -/
def structure? : TypeNode → Option StructureNode
  | record node | object node => some node
  | _ => none

/-- Put another node in the place of the node of a record or object type. -/
def withStructure (node : StructureNode) : TypeNode → TypeNode
  | record _ => record node
  | object _ => object node
  | other => other

end TypeNode

end StructuralTypes
