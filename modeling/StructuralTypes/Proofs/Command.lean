import StructuralTypes.Proofs.Action
import StructuralTypes.Proofs.Range.Handle

/-!
# Commands

All that can be asked of a compilation, as data: `Query` is what only reads, `Registration` what
enters a definition in a package, and `Command` is everything, the raw writes to the tables
included. A run executes commands one after the other, and each keeps what it has done, also when it
stops.

A command holds handles, as the tables do, and positions: of packages, of nodes, and of definitions
in their packages. It is in range if all of them lead to something.

Results:
* `execute_append`, `execute_concat`: a run goes on where it has come to.
* `Query.upholds`: a query changes nothing.
-/

namespace StructuralTypes

/-- What can be asked of a compilation without changing it. -/
inductive Query
  /-- A symbol. -/
  | symbol (s : SymbolId)
  /-- A scope. -/
  | scope (id : ScopeId)
  /-- The current scope of a symbol. -/
  | scopeOf (s : SymbolId)
  /-- What a name means in a scope. -/
  | lookup (id : ScopeId) (name : String)
  /-- A type. -/
  | type (ty : TypeId)
  /-- What a type stands for. -/
  | implied (ty : TypeId)
  /-- Whether no value of a type can be written to. -/
  | isReadonly (ty : TypeId)
  /-- The text of a type. -/
  | display (ty : TypeId)
  /-- Whether a reference is typed by a placeholder. -/
  | isPlaceholder (r : TypeReference)
  /-- Whether a stored node waits for a type. -/
  | deferred (position : Nat)
  /-- The text of a stored node. -/
  | renderNode (position level : Nat)
  /-- The registered type definition with a number. -/
  | typeDefinition (position number : Nat)
  /-- The registered class definition with a number. -/
  | classDefinition (position number : Nat)
  /-- The first registered type definition with a name. -/
  | findType (position : Nat) (name : String)
  /-- The local name of a package in another one. -/
  | qualifier (position : Nat) (unit : Option String) (target : PackageId)
  /-- The text of a package. -/
  | renderPackage (position : Nat)
  /-- The remembered clone of a type. -/
  | memo (slot : Nat) (ty : TypeId)
  /-- The unfinished clone of a type. -/
  | pending (slot : Nat) (ty : TypeId)

/-- Enters a definition in a package. -/
inductive Registration
  /-- A type definition, as it is. -/
  | typeDefinition (position : Nat) (d : TypeDefinition)
  /-- A class definition, as it is. -/
  | classDefinition (position : Nat) (d : ClassDefinition)
  /-- The definition of a type under a symbol. -/
  | definition (env : Environment) (ty : TypeId) (s : SymbolId) (position : Nat)
  /-- The definition of a type under a new symbol. -/
  | synthesized (env : Environment) (ty : TypeId) (template : SymbolId) (position : Nat)
  /-- The class of a symbol. -/
  | classOf (env : Environment) (s : SymbolId) (span : Span)
  /-- An anonymous record. -/
  | anonymousRecord (env : Environment) (ty : TypeId) (span : Span)

/-- Whatever can be asked of a compilation. -/
inductive Command
  /-- Something is read. -/
  | query (query : Query)
  /-- A definition is registered. -/
  | register (registration : Registration)
  /-- A symbol is added. -/
  | addSymbol (kind : SymbolKind) (d : Declaration)
  /-- A symbol is overwritten. -/
  | setSymbol (s : SymbolId) (symbol : Symbol)
  /-- A symbol gets a new scope. -/
  | openScope (owner : SymbolId)
  /-- A name is bound in a scope. -/
  | defineAt (scope : ScopeId) (name : String) (s : SymbolId)
  /-- A name is bound in the current scope of a symbol. -/
  | define (owner : SymbolId) (name : String) (s : SymbolId)
  /-- A type is added. -/
  | addType (entry : TypeEntry)
  /-- A type is overwritten. -/
  | setType (ty : TypeId) (entry : TypeEntry)
  /-- A field is written to a structure. -/
  | addField (ty : TypeId) (key : String) (field : Field)
  /-- A made-up name is handed out. -/
  | nextName (family : NameFamily) (package : PackageId)
  /-- A node is stored. -/
  | addNode (node : TypeNode)
  /-- A stored node is overwritten. -/
  | setNode (position : Nat) (node : TypeNode)
  /-- The detail of a stored error node is bound. -/
  | bindDetail (position : Nat) (ty : TypeId) (name : String)
  /-- A package is opened. -/
  | addPackage (id : PackageId) (name : String)
  /-- An import is appended. -/
  | addImport (position : Nat) (i : Import)
  /-- A clone is marked as unfinished. -/
  | begin (slot : Nat) (ty clone : TypeId)
  /-- The mark goes away. -/
  | finish (slot : Nat) (ty : TypeId)
  /-- The settings are replaced. -/
  | configure (settings : Settings)
  /-- An initializer is made. -/
  | createInitializer (env : Environment) (plan : InitializerPlan)
  /-- The structure of a stored node gets its initializer. -/
  | attachInitializer (env : Environment) (position : Nat)
  /-- A definition is made, but not registered. -/
  | transientDefinition (ty : TypeId) (s : SymbolId) (position : Nat)
  /-- The fields of a structure are declared. -/
  | fieldDeclarations (ty : TypeId) (package : PackageId)
  /-- A node for a record type is stored. -/
  | recordNode (ty : TypeId) (package : PackageId) (span : Span)
  /-- A node for an object type is stored. -/
  | objectNode (ty : TypeId) (span : Span)
  /-- A node for an error type is stored. -/
  | errorNode (env : Environment) (ty : TypeId) (span : Span)
  /-- A field is built. -/
  | buildField (env : Environment) (memo : Option Nat) (pending : Nat) (plan : FieldPlan)
    (template : Field)
  /-- All fields of a structure are built. -/
  | buildFields (env : Environment) (memo : Option Nat) (pending : Nat) (p : Population)
    (position : Nat)
  /-- The readonly variant of a type is requested. -/
  | readonlyVariant (env : Environment) (slots : CloneSlots) (stamp : Stamp) (ty : TypeId)

/-! ## What commands do -/

open Compilation

/-- How a query is answered. What the answer is, only the caller sees. -/
def Query.action : Query → Action Unit
  | symbol s => discard (reading (·.symbols.find s))
  | scope id => discard (reading (·.symbols.findScope id))
  | scopeOf s => discard (reading (·.symbols.scopeOf s))
  | lookup id name => discard (reading (·.symbols.lookup id name))
  | type ty => discard (reading (·.types.find ty))
  | implied ty => discard (reading (·.types.implied ty))
  | isReadonly ty => discard (reading (·.types.isReadonly ty))
  | display ty => discard (reading fun c => c.types.display c.symbols ty)
  | isPlaceholder r => discard (reading fun c => r.isPlaceholder c.types)
  | deferred position => do
    let n ← node position
    discard (reading fun c => n.deferred c.types)
  | renderNode position level => do
    let n ← node position
    discard (reading fun c => n.render c.symbols c.types level)
  | typeDefinition position number => discard (Compilation.typeDefinition position number)
  | classDefinition position number => do
    match (← package position).classDefinitions[number]? with
    | some _ => return
    | none => throw .dangling
  | findType position name => do
    let p ← package position
    discard (reading fun _ => .ok (p.findType? name))
  | qualifier position unit target => do
    let p ← package position
    discard (reading fun _ => .ok (p.qualifierFor unit target))
  | renderPackage position => do
    let p ← package position
    discard (reading fun c => p.render c.symbols c.types)
  | memo slot ty => discard (reading fun c => .ok ((c.memo slot).get? ty))
  | pending slot ty => discard (reading fun c => .ok ((c.pending slot).get? ty))

/-- How a definition is registered; the answer is its number. -/
def Registration.action : Registration → Action Nat
  | typeDefinition position d => registerType position d
  | classDefinition position d => registerClass position d
  | definition env ty s position => registerDefinition env ty s position
  | synthesized env ty template position => registerSynthesizedDefinition env ty template position
  | classOf env s span => registerClassOf env s span
  | anonymousRecord env ty span => registerAnonymousRecord env ty span

/-- How a command is carried out. What it answers, only the caller sees. -/
def Command.action : Command → Action Unit
  | query q => q.action
  | register r => discard r.action
  | addSymbol kind d => discard (onTables (Synth.addSymbol kind d))
  | setSymbol s symbol => onTables (Synth.changeSymbol s fun _ => symbol)
  | openScope owner => discard (onTables (Synth.openScope owner))
  | defineAt scope name s => onTables (Synth.defineAt scope name s)
  | define owner name s => onTables (Synth.define owner name s)
  | addType entry => discard (onTables (Synth.addType entry))
  | setType ty entry => onTables (Synth.changeType ty fun _ => entry)
  | addField ty key field => discard (Compilation.addField ty key field)
  | nextName family package => discard (onTables (Synth.nextName family package))
  | addNode node => discard (Compilation.addNode node)
  | setNode position node => Compilation.setNode position node
  | bindDetail position ty name => discard (Compilation.bindDetail position ty name)
  | addPackage id name => discard (Compilation.addPackage id name)
  | addImport position i => Compilation.addImport position i
  | begin slot ty clone => changePending slot (·.insert ty clone)
  | finish slot ty => changePending slot (·.erase ty)
  | configure settings => Compilation.configure settings
  | createInitializer env plan => discard (Compilation.createInitializer env plan)
  | attachInitializer env position => discard (Compilation.attachInitializer env position)
  | transientDefinition ty s position => discard (Compilation.transientDefinition ty s position)
  | fieldDeclarations ty package => discard (Compilation.fieldDeclarations ty package)
  | recordNode ty package span => discard (Compilation.recordNode ty package span)
  | objectNode ty span => discard (Compilation.objectNode ty span)
  | errorNode env ty span => discard (Compilation.errorNode env ty span)
  | buildField env memo pending plan template =>
    discard (Compilation.buildField env memo pending plan template)
  | buildFields env memo pending p position => Compilation.buildFields env memo pending p position
  | readonlyVariant env slots stamp ty => discard (Compilation.readonlyVariant env slots stamp ty)

namespace Compilation

/-- Where the compilation is after commands, one after the other. -/
def execute (c : Compilation) (commands : List Command) : Compilation :=
  commands.foldl (fun c command => c.after command.action) c

@[simp] theorem execute_nil (c : Compilation) : c.execute [] = c := rfl

theorem execute_append (c : Compilation) (commands commands' : List Command) :
    c.execute (commands ++ commands') = (c.execute commands).execute commands' :=
  List.foldl_append

/-- The last command of a run is carried out where the others have led. -/
theorem execute_concat (c : Compilation) (commands : List Command) (command : Command) :
    c.execute (commands ++ [command]) = (c.execute commands).after command.action :=
  execute_append c commands [command]

end Compilation

/-! ## Queries -/

/-- **A query changes nothing**: what was so before is so after it. -/
theorem Query.upholds {I : Compilation → Prop} (q : Query) : Upholds I q.action := by
  cases q with
  | deferred position | renderNode position _ | findType position _ | qualifier position _ _
  | renderPackage position =>
    exact (upholds_reading _).bind fun _ => (upholds_reading _).discarded
  | typeDefinition position number =>
    refine Upholds.discarded ((upholds_reading _).bind fun p => ?_)
    split
    · exact upholds_pure _
    · exact upholds_stop _
  | classDefinition position number =>
    refine (upholds_reading _).bind fun p => ?_
    split
    · exact upholds_pure _
    · exact upholds_stop _
  | _ => exact (upholds_reading _).discarded

/-! ## Commands in range -/

instance : HasHandles Query where
  handles
    | .symbol s | .scopeOf s => handles s
    | .scope id | .lookup id _ => handles id
    | .type ty | .implied ty | .isReadonly ty | .display ty | .memo _ ty | .pending _ ty =>
      handles ty
    | .isPlaceholder r => handles r
    | .deferred _ | .renderNode .. | .typeDefinition .. | .classDefinition .. | .findType ..
    | .qualifier .. | .renderPackage _ => []

instance : HasHandles Registration where
  handles
    | .typeDefinition _ d => handles d
    | .classDefinition _ d => handles d
    | .definition env ty s _ | .synthesized env ty s _ => handles (env, ty, s)
    | .classOf env s _ => handles (env, s)
    | .anonymousRecord env ty _ => handles (env, ty)

instance : HasHandles Command where
  handles
    | .query q => handles q
    | .register r => handles r
    | .addSymbol kind d => handles (kind, d)
    | .setSymbol s symbol => handles (s, symbol)
    | .openScope owner => handles owner
    | .defineAt scope _ s => handles (scope, s)
    | .define owner _ s => handles (owner, s)
    | .addType entry => handles entry
    | .setType ty entry => handles (ty, entry)
    | .addField ty _ field => handles (ty, field)
    | .addNode node | .setNode _ node => handles node
    | .nextName .. | .addPackage .. | .addImport .. => []
    | .bindDetail _ ty _ | .finish _ ty | .fieldDeclarations ty _ | .recordNode ty _ _
    | .objectNode ty _ => handles ty
    | .begin _ ty clone => handles (ty, clone)
    | .configure settings => handles settings
    | .createInitializer env plan => handles (env, plan)
    | .attachInitializer env _ => handles env
    | .transientDefinition ty s _ => handles (ty, s)
    | .errorNode env ty _ => handles (env, ty)
    | .buildField env _ _ plan template => handles (env, plan, template)
    | .buildFields env _ _ p _ => handles (env, p)
    | .readonlyVariant env _ stamp ty => handles (env, stamp, ty)

/-- A position in a compilation. -/
inductive Position
  /-- Of a package. -/
  | package (position : Nat)
  /-- Of a stored node. -/
  | node (position : Nat)
  /-- Of a type definition in a package. -/
  | typeDefinition (position number : Nat)
  /-- Of a class definition in a package. -/
  | classDefinition (position number : Nat)

/-- There is something at the position. -/
def Position.Occupied (c : Compilation) : Position → Prop
  | package position => c.packages[position]?.isSome
  | node position => c.nodes[position]?.isSome
  | typeDefinition position number =>
    (c.packages[position]?.bind (·.typeDefinitions[number]?)).isSome
  | classDefinition position number =>
    (c.packages[position]?.bind (·.classDefinitions[number]?)).isSome

instance (c : Compilation) : DecidablePred (Position.Occupied c)
  | .package position => inferInstanceAs (Decidable (c.packages[position]?.isSome = true))
  | .node position => inferInstanceAs (Decidable (c.nodes[position]?.isSome = true))
  | .typeDefinition position number => inferInstanceAs
    (Decidable ((c.packages[position]?.bind (·.typeDefinitions[number]?)).isSome = true))
  | .classDefinition position number => inferInstanceAs
    (Decidable ((c.packages[position]?.bind (·.classDefinitions[number]?)).isSome = true))

theorem Position.exists_typeDefinition {c : Compilation} {position number : Nat}
    (h : (Position.typeDefinition position number).Occupied c) :
    ∃ p d, c.packages[position]? = some p ∧ p.typeDefinitions[number]? = some d := by
  obtain ⟨d, hd⟩ := Option.isSome_iff_exists.1 h
  obtain ⟨p, hp, hd⟩ := Option.bind_eq_some_iff.1 hd
  exact ⟨p, d, hp, hd⟩

theorem Position.exists_classDefinition {c : Compilation} {position number : Nat}
    (h : (Position.classDefinition position number).Occupied c) :
    ∃ p d, c.packages[position]? = some p ∧ p.classDefinitions[number]? = some d := by
  obtain ⟨d, hd⟩ := Option.isSome_iff_exists.1 h
  obtain ⟨p, hp, hd⟩ := Option.bind_eq_some_iff.1 hd
  exact ⟨p, d, hp, hd⟩

/-- The positions that a query looks at. -/
def Query.positions : Query → List Position
  | deferred position | renderNode position _ => [.node position]
  | typeDefinition position number => [.typeDefinition position number]
  | classDefinition position number => [.classDefinition position number]
  | findType position _ | qualifier position .. | renderPackage position => [.package position]
  | _ => []

/-- The positions that a registration uses. -/
def Registration.positions : Registration → List Position
  | typeDefinition position _ | classDefinition position _ => [.package position]
  | definition env _ _ position | synthesized env _ _ position =>
    [.package env.package, .node position]
  | classOf env .. | anonymousRecord env .. => [.package env.package]

/-- The positions that a command uses. -/
def Command.positions : Command → List Position
  | query q => q.positions
  | register r => r.positions
  | setNode position _ | bindDetail position .. | transientDefinition _ _ position =>
    [.node position]
  | addImport position _ => [.package position]
  | createInitializer env _ | errorNode env .. | buildField env .. | readonlyVariant env .. =>
    [.package env.package]
  | attachInitializer env position | buildFields env _ _ _ position =>
    [.package env.package, .node position]
  | _ => []

/-- All handles and positions of the command lead to something. -/
def Command.InRange (c : Compilation) (command : Command) : Prop :=
  Within c.extent command ∧ ∀ position ∈ command.positions, position.Occupied c

instance (c : Compilation) : DecidablePred (Command.InRange c) := fun command =>
  inferInstanceAs (Decidable
    (Within c.extent command ∧ ∀ position ∈ command.positions, position.Occupied c))

end StructuralTypes
