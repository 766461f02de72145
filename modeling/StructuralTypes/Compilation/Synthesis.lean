import StructuralTypes.Compilation.Basic
import StructuralTypes.Synthesis.Readonly

/-!
# Synthesis in a compilation

The operations of a synthesis session as operations on a compilation: in the package of an
environment, on stored nodes, with the readonly clones of the given slots.

An `Environment` is a `SymbolEnv`, and `CloneSlots` say which `ReadonlyCloner` and `InProgress` are
passed on.
-/

namespace StructuralTypes

namespace Compilation

/-! ## Definitions -/

/-- Make an initializer in an environment. -/
def createInitializer (env : Environment) (plan : InitializerPlan) : Action FunctionNode :=
  synthesize env {} fun ctx => Synth.createInitializer ctx plan

/-- Give the structure of a stored node its initializer. -/
def attachInitializer (env : Environment) (position : Nat) : Action SymbolId := do
  let tree ← node position
  let before ← structureNode position
  let (s, after) ← synthesize env {} fun ctx => Synth.attachInitializer ctx before
  setNode position (tree.withStructure after)
  return s

/-- The definition of a type with a copy of a stored node, not registered anywhere. -/
def transientDefinition (ty : TypeId) (s : SymbolId) (position : Nat) : Action TypeDefinition := do
  onTables (Synth.draftDefinition ty s (← node position))

/-- Register the definition of a type with a copy of a stored node. -/
def registerDefinition (env : Environment) (ty : TypeId) (s : SymbolId) (position : Nat) :
    Action Nat := do
  let tree ← node position
  synthesize env {} fun _ => Synth.registerDefinition ty s tree

/-- Register the definition of a type under a new symbol, with a copy of a stored node. -/
def registerSynthesizedDefinition (env : Environment) (ty : TypeId) (template : SymbolId)
    (position : Nat) : Action Nat := do
  let tree ← node position
  synthesize env {} fun _ => Synth.registerSynthesizedDefinition ty template tree

/-- Register the class of a symbol. -/
def registerClassOf (env : Environment) (classSymbol : SymbolId) (span : Span) : Action Nat :=
  synthesize env {} fun _ => Synth.registerClassOf span classSymbol

/-- Register an anonymous record as a definition of its own. -/
def registerAnonymousRecord (env : Environment) (ty : TypeId) (span : Span) : Action Nat :=
  synthesize env {} fun ctx => Synth.registerAnonymousRecord ctx ty span

/-! ## Nodes -/

/-- The declarations of the fields of a structure. -/
def fieldDeclarations (ty : TypeId) (package : PackageId) : Action (List VariableNode) :=
  onTables (Synth.fieldDeclarations ty package)

/-- Store a new node for a record type. -/
def recordNode (ty : TypeId) (package : PackageId) (span : Span) : Action Nat := do
  addNode (.record (← onTables (Synth.recordNode ty package span)))

/-- Store a new node for an object type. -/
def objectNode (ty : TypeId) (span : Span) : Action Nat := do
  addNode (.object (← onTables (Synth.objectNode ty span)))

/-- Store a new node for an error type. -/
def errorNode (env : Environment) (ty : TypeId) (span : Span) : Action Nat := do
  addNode (← synthesize env {} fun _ => Synth.errorNode ty span)

/-! ## Fields and readonly variants -/

/-- The cloner of a context, if one is wanted. -/
def cloner? (wanted : Bool) (ctx : Context) : Option Cloner :=
  if wanted then some (Synth.readonlyVariant ctx) else none

/-- Build a field for a structure after a template, with a cloner if a slot for one is given. -/
def buildField (env : Environment) (memo : Option Nat) (pending : Nat) (plan : FieldPlan)
    (template : Field) : Action Field :=
  synthesize env ⟨memo.getD 0, pending⟩ fun ctx =>
    Synth.buildField ctx (cloner? memo.isSome ctx) plan template

/-- Build all fields of a structure anew in another one, whose node is stored, with a cloner if a
slot for one is given. -/
def buildFields (env : Environment) (memo : Option Nat) (pending : Nat) (p : Population)
    (position : Nat) : Action Unit := do
  let tree ← node position
  let before ← structureNode position
  let after ← synthesize env ⟨memo.getD 0, pending⟩ fun ctx =>
    Synth.buildFields ctx (cloner? memo.isSome ctx) p before
  setNode position (tree.withStructure after)

/-- The readonly variant of a type. -/
def readonlyVariant (env : Environment) (slots : CloneSlots) (stamp : Stamp)
    (ty : TypeId) : Action TypeId :=
  synthesize env slots fun ctx => Synth.readonlyVariant ctx stamp ty

end Compilation

end StructuralTypes
