import StructuralTypes.Handle

/-!
# Faults

What can go wrong, by cause. A `Fault` is a failure that an operation reports: its wording is
`Fault.message`. All of them but one are broken promises of earlier passes (`Fault.isInternal`);
the exception is a type that has no readonly variant, which a user's program can bring about.

`Stop` adds the two ways of ending that no caller can be told about: following a handle that its
table does not have, and a search that would go on for ever.

`Fault` is `SymbolError`, `RegistrationError` and `SynthesisError` in one, with their messages, and
`Fault.isInternal` is `is_internal`:
* `nameTaken` and `withoutScope` are `DuplicateBinding` and `NoScope`;
* `typeDefined` and `classDefined` are `DuplicateTypeDefinition` and `DuplicateClassDefinition`;
* `symbolMissing`, `nameMissing` and `typeMissing` are `MissingTypeSymbol`, `MissingName` and
  `UntypedSymbol`;
* `wrongType` and `wrongSymbol` are `UnexpectedType` and `UnexpectedSymbol`;
* `untypedNode`, `clonerMissing` and `notClonable` are `IncompleteNode`, `ClonerRequired` and
  `Collaborator`.

Left out are the reasons that a collaborator other than the readonly cloner may give.
-/

namespace StructuralTypes

/-- What a type was expected to be. -/
inductive TypeRole
  /-- A record type. -/
  | record
  /-- An object type. -/
  | object
  /-- A record or an object type. -/
  | recordOrObject
  /-- An error type. -/
  | error
deriving DecidableEq, Repr

/-- The noun phrase for a role, with its article. -/
def TypeRole.phrase : TypeRole → String
  | record => "a record"
  | object => "an object"
  | recordOrObject => "a structure"
  | error => "an error"

/-- What a type symbol is needed for. -/
inductive SymbolRole
  /-- To record the initializer of its structure. -/
  | initializerHolder
  /-- To link to the definition of its type. -/
  | definitionLink
deriving DecidableEq, Repr

/-- The noun phrase for a role, with its article. -/
def SymbolRole.phrase : SymbolRole → String
  | initializerHolder => "a type symbol"
  | definitionLink => "a type"

/-- Why a type has no readonly variant. -/
inductive Obstacle
  /-- It stands for an error detail that is not bound yet. -/
  | errorDetailPlaceholder
  /-- It is a reference that leads round in a circle. -/
  | unresolvedReference
deriving DecidableEq, Repr

/-- The sentence for an obstacle. -/
def Obstacle.message : Obstacle → String
  | errorDetailPlaceholder => "the error detail placeholder has no readonly variant"
  | unresolvedReference => "the type reference does not resolve"

/-- A failure that an operation reports. -/
inductive Fault
  /-- The scope of `owner` already binds `name`. -/
  | nameTaken (name : String) (owner existing : SymbolId)
  /-- The symbol has no scope to bind a name in. -/
  | withoutScope (symbol : SymbolId)
  /-- The package already has a type definition under this symbol. -/
  | typeDefined (name : String) (symbol : SymbolId) (package : PackageId)
  /-- The package already has a class definition under this symbol. -/
  | classDefined (symbol : SymbolId) (package : PackageId)
  /-- No symbol names the type. -/
  | symbolMissing (ty : TypeId)
  /-- The symbol of the type has no name to build a member's name from. -/
  | nameMissing (ty : TypeId)
  /-- The type is not of the needed kind. -/
  | wrongType (ty : TypeId) (expected : TypeRole)
  /-- The symbol is not of the needed kind. -/
  | wrongSymbol (symbol : SymbolId) (expected : SymbolRole)
  /-- The symbol has no type. -/
  | typeMissing (symbol : SymbolId)
  /-- The node of a structure does not say which type it is for. -/
  | untypedNode
  /-- A readonly field was asked for where nothing can make its type readonly. -/
  | clonerMissing
  /-- The type has no readonly variant. -/
  | notClonable (ty : TypeId) (obstacle : Obstacle)
deriving DecidableEq, Repr

namespace Fault

/-- The wording of a fault. -/
def message : Fault → String
  | nameTaken name owner existing =>
    s!"`{name}` is already bound to {existing} in the scope of {owner}"
  | withoutScope symbol => s!"{symbol} does not own a scope"
  | typeDefined name symbol package =>
    s!"type definition `{name}` ({symbol}) is already registered in {package}"
  | classDefined symbol package =>
    s!"class definition for {symbol} is already registered in {package}"
  | symbolMissing ty => s!"{ty} has no type symbol"
  | nameMissing ty => s!"cannot mangle a member name for {ty}: the type is unnamed"
  | wrongType ty expected => s!"{ty} is not {expected.phrase} type"
  | wrongSymbol symbol expected => s!"{symbol} is not {expected.phrase} symbol"
  | typeMissing symbol => s!"{symbol} has no type"
  | untypedNode => "type node is missing its structure node without a type"
  | clonerMissing => "immutable field synthesis requested without a type cloner"
  | notClonable ty obstacle => s!"immutable type cloning failed for {ty}: {obstacle.message}"

/-- Whether only an earlier pass can be to blame, as opposed to the user's program. -/
def isInternal : Fault → Bool
  | notClonable .. => false
  | _ => true

theorem isInternal_eq_false_iff {f : Fault} :
    f.isInternal = false ↔ ∃ ty obstacle, f = notClonable ty obstacle := by
  cases f <;> simp [isInternal]

end Fault

/-- Why an operation ended without a result. -/
inductive Stop
  /-- A handle beyond the end of its table was followed. -/
  | dangling
  /-- A search would go on for ever. -/
  | unending
  /-- The operation reports a fault. -/
  | fault (f : Fault)
deriving DecidableEq, Repr

instance : Coe Fault Stop := ⟨Stop.fault⟩

end StructuralTypes
