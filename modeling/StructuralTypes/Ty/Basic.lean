import StructuralTypes.Handle
import StructuralTypes.OrderedMap
import StructuralTypes.Source

/-!
# Types

A type is built from other types by their handles, so types may contain themselves. Records and
objects are the structure types: they have fields, in the order of their declaration.

`Ty` is `Type`, with `absent` for its `None`. `structureKind?` and `fields?` are `structure_kind`
and `fields`, `mapFields` and `withRest` are what is written through `fields_mut` and to
`rest_field_type`, and `isUnwritable` is `is_inherently_immutable`.
-/

namespace StructuralTypes

/-- A member of a record or object type. -/
structure Field where
  /-- The name. -/
  name : String
  /-- The name as first written, kept for messages to the user. -/
  writtenName : String := name
  /-- The type of its values. -/
  ty : TypeId
  /-- The symbol of the field, which its structure's symbol owns. -/
  symbol : Option SymbolId := none
  /-- Its place. -/
  span : Span := {}
deriving DecidableEq, Repr

/-- The fields of a structure, by key and in the order of their declaration. -/
abbrev FieldMap := OrderedMap String Field

/-- What a record type is made of. -/
structure RecordType where
  /-- The fields. -/
  fields : FieldMap := ∅
  /-- Whether values have the declared fields only. -/
  sealed : Bool := false
  /-- The type of undeclared fields, once decided. -/
  rest : Option TypeId := none
deriving DecidableEq, Repr

/-- The kinds of structure. -/
inductive StructureKind
  /-- A record. -/
  | record
  /-- An object. -/
  | object
deriving DecidableEq, Repr

/-- A type, over the handles of the types that it is built from. -/
inductive Ty
  /-- The type of the nil value. -/
  | nil
  /-- Integers. -/
  | int
  /-- Floating-point numbers. -/
  | float
  /-- Truth values. -/
  | boolean
  /-- Text. -/
  | string
  /-- Every value but errors. -/
  | any
  /-- Plain data. -/
  | anydata
  /-- The type without values. -/
  | never
  /-- No type at all, such as the type of the undeclared fields of a record that has none. -/
  | absent
  /-- Stands for a type that an earlier pass failed to resolve. -/
  | semanticError
  /-- The values of any of the members. -/
  | union (members : List TypeId)
  /-- Records. -/
  | record (record : RecordType)
  /-- Objects. -/
  | object (fields : FieldMap)
  /-- Errors with a detail. -/
  | error (detail : TypeId)
  /-- Maps from text to the values of one type. -/
  | map (constraint : TypeId)
  /-- Functions. -/
  | invokable (params : List TypeId) (rest : Option TypeId) (returns : TypeId)
  /-- Another type, by name. -/
  | ref (target : TypeId)
  /-- The detail of an intersected error, to be bound by a later pass. -/
  | placeholder
deriving DecidableEq, Repr

namespace Ty

/-- Which kind of structure a type is, if it is one. -/
def structureKind? : Ty → Option StructureKind
  | record _ => some .record
  | object _ => some .object
  | _ => none

/-- The fields of a structure. -/
def fields? : Ty → Option FieldMap
  | record r => some r.fields
  | object fields => some fields
  | _ => none

/-- Change the fields of a structure; other types stay as they are. -/
def mapFields (f : FieldMap → FieldMap) : Ty → Ty
  | record r => record { r with fields := f r.fields }
  | object fields => object (f fields)
  | ty => ty

/-- Decide the type of the undeclared fields of a record; other types stay as they are. -/
def withRest (rest : TypeId) : Ty → Ty
  | record r => record { r with rest := some rest }
  | ty => ty

/-- Whether no value of the type can be written to, whatever its flags say. -/
def isUnwritable : Ty → Bool
  | nil | int | float | boolean | string | never | absent | semanticError | error _
  | invokable .. => true
  | any | anydata | union _ | record _ | object _ | map _ | ref _ | placeholder => false

/-- Whether the type is built as a function type is. -/
def isInvokable : Ty → Bool
  | invokable .. => true
  | _ => false

theorem structureKind?_isSome_iff (ty : Ty) : ty.structureKind?.isSome ↔ ty.fields?.isSome := by
  cases ty <;> simp [structureKind?, fields?]

@[simp] theorem fields?_mapFields (f : FieldMap → FieldMap) (ty : Ty) :
    (ty.mapFields f).fields? = ty.fields?.map f := by
  cases ty <;> rfl

@[simp] theorem structureKind?_mapFields (f : FieldMap → FieldMap) (ty : Ty) :
    (ty.mapFields f).structureKind? = ty.structureKind? := by
  cases ty <;> rfl

@[simp] theorem fields?_withRest (rest : TypeId) (ty : Ty) :
    (ty.withRest rest).fields? = ty.fields? := by
  cases ty <;> rfl

end Ty

end StructuralTypes
