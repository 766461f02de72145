import StructuralTypes.Node.Deferred
import StructuralTypes.Package.Printer
import StructuralTypes.Synthesis.Session

/-!
# Compilations

A compilation holds all that one run of a compiler knows: the tables, the name counters, the
packages and the nodes that are not in a definition yet, both by position. What is known about
readonly clones is kept in numbered slots, so that some requests can share it and others not.

Each operation on a session runs on the part of the compilation that it needs, and what it did is
kept, also when it stopped.

Modelled is what the callers of a synthesis hold: one `SymbolTable`, `TypeTable` and
`AnonymousNames`, a `SynthesisConfig`, packages, nodes, and any number of `ReadonlyCloner`s and
`InProgress`es.
-/

namespace StructuralTypes

/-- All that one run of a compiler knows. -/
structure Compilation where
  /-- All symbols and scopes. -/
  symbols : SymbolTable := ∅
  /-- All types. -/
  types : TypeTable := .initial
  /-- The counters for made-up names. -/
  names : NameSupply := {}
  /-- The packages, by position. -/
  packages : Array Package := #[]
  /-- The nodes that are not in a definition yet, by position. -/
  nodes : Array TypeNode := #[]
  /-- The remembered readonly clones, by slot. -/
  memos : OrderedMap Nat CloneMap := ∅
  /-- The unfinished readonly clones, by slot. -/
  pendings : OrderedMap Nat CloneMap := ∅
  /-- The settings of synthesized members. -/
  settings : Settings := {}
deriving DecidableEq, Repr

/-- An operation on a compilation. -/
abbrev Action := Stateful Compilation

/-- Where a synthesis happens. -/
structure Environment where
  /-- The position of the package. -/
  package : Nat
  /-- The symbol that owns the scope. -/
  scopeOwner : SymbolId
deriving DecidableEq, Repr

/-- Which of the numbered slots a synthesis uses. -/
structure CloneSlots where
  /-- The slot of the remembered clones. -/
  memo : Nat := 0
  /-- The slot of the unfinished clones. -/
  pending : Nat := 0
deriving DecidableEq, Repr

namespace Compilation

instance : EmptyCollection Compilation := ⟨{}⟩

/-- The remembered clones of a slot; a slot that was never used has none. -/
def memo (c : Compilation) (slot : Nat) : CloneMap := (c.memos.get? slot).getD ∅

/-- The unfinished clones of a slot; a slot that was never used has none. -/
def pending (c : Compilation) (slot : Nat) : CloneMap := (c.pendings.get? slot).getD ∅

/-! ## Sessions on a compilation -/

/-- The session in a package that uses certain slots. -/
def session (c : Compilation) (package : Package) (slots : CloneSlots) : Session :=
  { symbols := c.symbols, types := c.types, names := c.names, package
    memo := c.memo slots.memo, pending := c.pending slots.pending }

/-- Keep the tables and counters of a session. -/
def keepTables (c : Compilation) (s : Session) : Compilation :=
  { c with symbols := s.symbols, types := s.types, names := s.names }

/-- Keep all of a session. -/
def keep (c : Compilation) (position : Nat) (slots : CloneSlots) (s : Session) : Compilation :=
  { c.keepTables s with
    packages := c.packages.setIfInBounds position s.package
    memos := c.memos.insert slots.memo s.memo
    pendings := c.pendings.insert slots.pending s.pending }

/-- Run a session's operation that needs neither a package nor the slots. -/
def onTables {α : Type} (act : Synth α) : Action α := fun c =>
  match act (c.session { id := ⟨0⟩, name := "" } {}) with
  | .ok a s => .ok a (c.keepTables s)
  | .error e s => .error e (c.keepTables s)

/-- Run a session's operation in an environment. -/
def synthesize {α : Type} (env : Environment) (slots : CloneSlots) (act : Context → Synth α) :
    Action α := fun c =>
  match c.packages[env.package]? with
  | none => .error .dangling c
  | some package =>
    match act ⟨c.settings, env.scopeOwner⟩ (c.session package slots) with
    | .ok a s => .ok a (c.keep env.package slots s)
    | .error e s => .error e (c.keep env.package slots s)

/-- Write a field under a key of a structure, and tell whether the key was there; other types have
no fields to write. -/
def addField (ty : TypeId) (key : String) (field : Field) : Action (Option Bool) := do
  match (← reading (·.types.find ty)).ty.fields? with
  | none => return none
  | some before =>
    onTables <| Synth.changeType ty fun e => { e with ty := e.ty.mapFields (·.insert key field) }
    return some (before.contains key)

/-! ## Nodes and packages -/

/-- The node at a position. -/
def node (position : Nat) : Action TypeNode := reading fun c =>
  match c.nodes[position]? with
  | some node => .ok node
  | none => .error .dangling

/-- The record or object node at a position. -/
def structureNode (position : Nat) : Action StructureNode := do
  match (← node position).structure? with
  | some node => return node
  | none => throw (Stop.fault .untypedNode)

/-- Store a node; gives back its position. -/
def addNode (node : TypeNode) : Action Nat := fun c =>
  .ok c.nodes.size { c with nodes := c.nodes.push node }

/-- Put another node in the place of a stored one. -/
def setNode (position : Nat) (node : TypeNode) : Action Unit := fun c =>
  .ok () { c with nodes := c.nodes.setIfInBounds position node }

/-- Put a real type in the place of the placeholder of a stored error node, if it has one. -/
def bindDetail (position : Nat) (ty : TypeId) (name : String) : Action Bool := do
  let before ← node position
  match ← reading fun c => before.bindDetail? c.types ty name with
  | some after =>
    setNode position after
    return true
  | none => return false

/-- The package at a position. -/
def package (position : Nat) : Action Package := reading fun c =>
  match c.packages[position]? with
  | some package => .ok package
  | none => .error .dangling

/-- The registered type definition with a number. -/
def typeDefinition (position number : Nat) : Action TypeDefinition := do
  match (← package position).typeDefinitions[number]? with
  | some d => return d
  | none => throw .dangling

/-- Open a package; gives back its position. -/
def addPackage (id : PackageId) (name : String) : Action Nat := fun c =>
  .ok c.packages.size { c with packages := c.packages.push { id, name } }

/-- Change the package at a position. -/
def changePackage {α : Type} (position : Nat) (change : Package → Except Stop (α × Package)) :
    Action α := do
  let before ← package position
  let (a, after) ← reading fun _ => change before
  modify fun c => { c with packages := c.packages.setIfInBounds position after }
  return a

/-- Append an import to the package at a position. -/
def addImport (position : Nat) (i : Import) : Action Unit :=
  changePackage position fun p => .ok ((), p.addImport i)

/-- Register a type definition in the package at a position. -/
def registerType (position : Nat) (d : TypeDefinition) : Action Nat :=
  changePackage position (·.registerType d)

/-- Register a class definition in the package at a position. -/
def registerClass (position : Nat) (d : ClassDefinition) : Action Nat :=
  changePackage position (·.registerClass d)

/-! ## Slots and settings -/

/-- Change the unfinished clones of a slot. -/
def changePending (slot : Nat) (f : CloneMap → CloneMap) : Action Unit := fun c =>
  .ok () { c with pendings := c.pendings.insert slot (f (c.pending slot)) }

/-- Replace the settings. -/
def configure (settings : Settings) : Action Unit := fun c => .ok () { c with settings }

end Compilation

end StructuralTypes
