import StructuralTypes.NameSupply
import StructuralTypes.Package.Basic
import StructuralTypes.Stateful
import StructuralTypes.Symbol.Table
import StructuralTypes.Ty.Table

/-!
# Synthesis sessions

Synthesis builds fields, initializers and definitions for structure types. It works on a `Session`:
the tables, the name counters, the package that definitions are registered in, and what is known
about readonly clones. An operation that stops keeps what it has done so far, since later operations
can see it.

The steps that operations are made of come in three groups: reading, which changes nothing, writing
to a table, and registering.

A `Session` is what a `Synthesizer` works on, with the package of its `SymbolEnv`, the cache of the
`ReadonlyCloner` as `memo` and `InProgress` as `pending`; a `Context` is the rest that an operation
is given, the `SynthesisConfig` as `Settings` and the `scope_owner`. Of the lookups, `symbolOf`,
`typeOf` and `nameOf` are `type_symbol`, `symbol_type` and `type_name`, and `requireRecord` and
`requireObject` are `expect_record` and `expect_object`. `whilePending` is what is done between
`begin` and `finish`. Left out is what is logged.
-/

namespace StructuralTypes

/-- Types and their readonly variants. -/
abbrev CloneMap := OrderedMap TypeId TypeId

/-- The settings of synthesized members. -/
structure Settings where
  /-- What the name of an initializer ends in. -/
  initializerSuffix : String := "init"
  /-- The name of the variable that an initializer is called on. -/
  receiverName : String := "self"
  /-- What an initializer returns; nil unless set. -/
  initializerReturns : Option TypeId := none
deriving DecidableEq, Repr, Inhabited

/-- What stays the same during a synthesis. -/
structure Context where
  /-- The settings. -/
  settings : Settings
  /-- The symbol that owns the scope where the synthesis happens. -/
  scopeOwner : SymbolId
deriving DecidableEq, Repr

/-- What a synthesis works on. -/
structure Session where
  /-- All symbols and scopes. -/
  symbols : SymbolTable
  /-- All types. -/
  types : TypeTable
  /-- The counters for made-up names. -/
  names : NameSupply
  /-- The package that definitions are registered in. -/
  package : Package
  /-- The finished variants, by what they are variants of. -/
  memo : CloneMap := ∅
  /-- The clones of structures that are still being filled, by what they are clones of. -/
  pending : CloneMap := ∅
deriving DecidableEq, Repr

/-- An operation of a synthesis: it ends with a result or stops, and leaves a session either way. -/
abbrev Synth := Stateful Session

namespace Synth

/-! ## Reading -/

/-- The symbol with a handle. -/
def symbol (s : SymbolId) : Synth Symbol := reading (·.symbols.find s)

/-- The type with a handle. -/
def entry (ty : TypeId) : Synth TypeEntry := reading (·.types.find ty)

/-- The type that a type stands for. -/
def implied (ty : TypeId) : Synth TypeId := reading (·.types.implied ty)

/-- Whether no value of a type can be written to. -/
def isReadonly (ty : TypeId) : Synth Bool := reading (·.types.isReadonly ty)

/-- The symbol that names a type. -/
def symbolOf (ty : TypeId) : Synth SymbolId := do
  match (← entry ty).symbol with
  | some s => return s
  | none => fail (.symbolMissing ty)

/-- The type of a symbol. -/
def typeOf (s : SymbolId) : Synth TypeId := do
  match (← symbol s).ty with
  | some ty => return ty
  | none => fail (.typeMissing s)

/-- The name of the symbol that names a type; the empty name is none. -/
def nameOf (ty : TypeId) : Synth String := do
  let name := (← symbol (← symbolOf ty)).name
  if name.isEmpty then fail (.nameMissing ty) else return name

/-- The kind of a structure type. -/
def kindOf (ty : TypeId) : Synth StructureKind := do
  match (← entry ty).ty.structureKind? with
  | some kind => return kind
  | none => fail (.wrongType ty .recordOrObject)

/-- The fields of a structure type. -/
def fieldsOf (ty : TypeId) : Synth FieldMap := do
  match (← entry ty).ty.fields? with
  | some fields => return fields
  | none => fail (.wrongType ty .recordOrObject)

/-- The handle of the package. -/
def packageId : Synth PackageId := reading fun s => .ok s.package.id

/-- The local name of the first import of a package, or the empty name if nothing imports it. -/
def qualifierFor (target : PackageId) : Synth String :=
  reading fun s => .ok (s.package.qualifierFor none target)

/-- Make sure that a type is a record type. -/
def requireRecord (ty : TypeId) : Synth Unit := do
  match (← entry ty).ty with
  | .record _ => return
  | _ => fail (.wrongType ty .record)

/-- Make sure that a type is an object type. -/
def requireObject (ty : TypeId) : Synth Unit := do
  match (← entry ty).ty with
  | .object _ => return
  | _ => fail (.wrongType ty .object)

/-! ## Writing -/

/-- Replace the symbol table by what a change makes of it. -/
def onSymbols (change : SymbolTable → Except Stop SymbolTable) : Synth Unit := fun s =>
  match change s.symbols with
  | .ok symbols => .ok () { s with symbols }
  | .error e => .error e s

/-- Replace the type table by what a change makes of it. -/
def onTypes (change : TypeTable → Except Stop TypeTable) : Synth Unit := fun s =>
  match change s.types with
  | .ok types => .ok () { s with types }
  | .error e => .error e s

/-- Add a symbol. -/
def addSymbol (kind : SymbolKind) (declaration : Declaration) : Synth SymbolId := fun s =>
  let (id, symbols) := s.symbols.add kind declaration
  .ok id { s with symbols }

/-- Change a symbol in place. -/
def changeSymbol (s : SymbolId) (f : Symbol → Symbol) : Synth Unit := onSymbols (·.change s f)

/-- Change what the symbol of a named type has of its own; no other symbol will do. -/
def changeTypeLinks (s : SymbolId) (role : SymbolRole) (f : TypeLinks → TypeLinks) :
    Synth Unit := do
  match (← symbol s).typeLinks? with
  | some _ => changeSymbol s (.mapTypeLinks f)
  | none => fail (.wrongSymbol s role)

/-- Give a symbol a new, empty scope. -/
def openScope (owner : SymbolId) : Synth ScopeId := fun s =>
  match s.symbols.openScope owner with
  | .ok (id, symbols) => .ok id { s with symbols }
  | .error e => .error e s

/-- Bind a name in a scope. -/
def defineAt (scope : ScopeId) (name : String) (s : SymbolId) : Synth Unit :=
  onSymbols (·.define scope name s)

/-- Bind a name in the current scope of a symbol. -/
def define (owner : SymbolId) (name : String) (s : SymbolId) : Synth Unit :=
  onSymbols (·.defineIn owner name s)

/-- Add a type. -/
def addType (entry : TypeEntry) : Synth TypeId := fun s =>
  let (id, types) := s.types.add entry
  .ok id { s with types }

/-- Change a type in place. -/
def changeType (ty : TypeId) (f : TypeEntry → TypeEntry) : Synth Unit := onTypes (·.change ty f)

/-- Hand out the next made-up name of a family to a package. -/
def nextName (family : NameFamily) (package : PackageId) : Synth String := fun s =>
  let (name, names) := s.names.next family package
  .ok name { s with names }

/-! ## Registering and remembering -/

/-- Register a type definition in the package. -/
def registerType (d : TypeDefinition) : Synth Nat := fun s =>
  match s.package.registerType d with
  | .ok (n, package) => .ok n { s with package }
  | .error e => .error e s

/-- Register a class definition in the package. -/
def registerClass (d : ClassDefinition) : Synth Nat := fun s =>
  match s.package.registerClass d with
  | .ok (n, package) => .ok n { s with package }
  | .error e => .error e s

/-- Remember the readonly variant of a type. -/
def remember (ty variant : TypeId) : Synth Unit := fun s =>
  .ok () { s with memo := s.memo.insert ty variant }

/-- Run an operation while the clone of a structure is marked as unfinished. The mark goes away
however the operation ends. -/
def whilePending {α : Type} (source clone : TypeId) (act : Synth α) : Synth α := fun s =>
  match act { s with pending := s.pending.insert source clone } with
  | .ok a s' => .ok a { s' with pending := s'.pending.erase source }
  | .error e s' => .error e { s' with pending := s'.pending.erase source }

end Synth

end StructuralTypes
