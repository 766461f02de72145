import StructuralTypes.Fault
import StructuralTypes.Node.Basic

/-!
# Packages

A package being compiled: its imports and the definitions registered in it so far. A definition is
registered under a symbol, once; its number is its position, and it is never changed or removed.

`registerType` and `registerClass` are `add_type_definition` and `add_class_definition`, with the
numbers `TypeDefId` and `ClassDefId`; `findType?` is `find_type_definition`. `qualifierFor` is
`package_alias`.

Results:
* `registerType_eq_ok_iff`, `registerClass_eq_ok_iff`: registering succeeds exactly for a symbol
  that has no definition of that kind yet, and appends the definition.
-/

namespace StructuralTypes

/-- A named type registered in a package. -/
structure TypeDefinition where
  /-- The name. -/
  name : Ident
  /-- The type. -/
  ty : Option TypeId
  /-- The symbol that it is registered under. -/
  symbol : SymbolId
  /-- The tree of its type. -/
  node : TypeNode
  /-- Its modifiers. -/
  flags : Flags
  /-- The place of the definition. -/
  span : Span
deriving DecidableEq, Repr

/-- A class registered in a package. -/
structure ClassDefinition where
  /-- The place of the definition. -/
  span : Span
  /-- The object type. -/
  ty : TypeId
  /-- The symbol that it is registered under. -/
  symbol : SymbolId
  /-- The declarations of the fields, in order. -/
  fields : List VariableNode
deriving DecidableEq, Repr

/-- An import, after its target was looked for. -/
structure Import where
  /-- The name that stands for the target in this package. -/
  localName : Ident
  /-- The compilation unit that the import is written in. -/
  unit : Option String := none
  /-- The imported package, unless it was not found. -/
  target : Option PackageId := none
  /-- The place of the import. -/
  span : Span := {}
deriving DecidableEq, Repr

/-- A package being compiled. -/
structure Package where
  /-- Its own handle. -/
  id : PackageId
  /-- Its name. -/
  name : String
  /-- The imports, in the order of their declaration. -/
  imports : List Import := []
  /-- The registered type definitions, by number. -/
  typeDefinitions : List TypeDefinition := []
  /-- The registered class definitions, by number. -/
  classDefinitions : List ClassDefinition := []
deriving DecidableEq, Repr

namespace Package

/-- Append an import. -/
def addImport (p : Package) (i : Import) : Package := { p with imports := p.imports ++ [i] }

/-- Register a type definition under a symbol that has none yet; the number is where it stands. -/
def registerType (p : Package) (d : TypeDefinition) : Except Stop (Nat × Package) :=
  if d.symbol ∈ p.typeDefinitions.map (·.symbol) then
    .error (Fault.typeDefined d.name.name d.symbol p.id)
  else
    .ok (p.typeDefinitions.length, { p with typeDefinitions := p.typeDefinitions ++ [d] })

/-- Register a class definition under a symbol that has none yet; the number is where it stands. -/
def registerClass (p : Package) (d : ClassDefinition) : Except Stop (Nat × Package) :=
  if d.symbol ∈ p.classDefinitions.map (·.symbol) then
    .error (Fault.classDefined d.symbol p.id)
  else
    .ok (p.classDefinitions.length, { p with classDefinitions := p.classDefinitions ++ [d] })

/-- The first registered type definition with a name. -/
def findType? (p : Package) (name : String) : Option TypeDefinition :=
  p.typeDefinitions.find? (·.name.name == name)

/-- The local name of the first import of a package, or the empty name if nothing imports it. If a
compilation unit is given, only its imports count. -/
def qualifierFor (p : Package) (unit : Option String) (target : PackageId) : String :=
  let visible := p.imports.filter fun i => unit.isNone || i.unit == unit
  match visible.find? (·.target == some target) with
  | some i => i.localName.name
  | none => ""

theorem registerType_eq_ok_iff {p p' : Package} {d : TypeDefinition} {n : Nat} :
    p.registerType d = .ok (n, p') ↔
      d.symbol ∉ p.typeDefinitions.map (·.symbol) ∧ n = p.typeDefinitions.length ∧
        p' = { p with typeDefinitions := p.typeDefinitions ++ [d] } := by
  unfold registerType
  split <;> rename_i h <;> simp [h, eq_comm]

theorem registerType_eq_error_iff {p : Package} {d : TypeDefinition} {e : Stop} :
    p.registerType d = .error e ↔
      d.symbol ∈ p.typeDefinitions.map (·.symbol) ∧
        e = Fault.typeDefined d.name.name d.symbol p.id := by
  unfold registerType
  split <;> rename_i h <;> simp [h, eq_comm]

theorem registerClass_eq_ok_iff {p p' : Package} {d : ClassDefinition} {n : Nat} :
    p.registerClass d = .ok (n, p') ↔
      d.symbol ∉ p.classDefinitions.map (·.symbol) ∧ n = p.classDefinitions.length ∧
        p' = { p with classDefinitions := p.classDefinitions ++ [d] } := by
  unfold registerClass
  split <;> rename_i h <;> simp [h, eq_comm]

theorem registerClass_eq_error_iff {p : Package} {d : ClassDefinition} {e : Stop} :
    p.registerClass d = .error e ↔
      d.symbol ∈ p.classDefinitions.map (·.symbol) ∧ e = Fault.classDefined d.symbol p.id := by
  unfold registerClass
  split <;> rename_i h <;> simp [h, eq_comm]

end Package

end StructuralTypes
