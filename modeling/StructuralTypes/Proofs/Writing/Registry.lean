import StructuralTypes.Proofs.Writing.Run

/-!
# Registries over a run

Whatever is done with a compilation and however it ends, the registries of its packages only get
definitions at their ends, each under a symbol that had none. So the number that a registration has
given back leads to the same definition ever after.

A registration fails as a duplicate exactly if its symbol has a definition, and a registration that
fails, for whatever reason, leaves the packages as they were. Those under symbols that are made for
the purpose never fail as duplicates, as long as no definition was registered ahead under a symbol
that was yet to be made.

Results:
* **`Registration.ends`**: what a registration enters, and that it enters nothing if it fails.
* `registersOnce`: how registrations are refused.
* **`registry_execute`**: registries over a whole run.
-/

namespace StructuralTypes

/-! ## What a registration asks for -/

namespace Registration

/-- The position of the package to register in. -/
def package : Registration → Nat
  | typeDefinition position _ | classDefinition position _ => position
  | definition env .. | synthesized env .. | classOf env .. | anonymousRecord env .. => env.package

/-- The registry to register in. -/
def registry : Registration → Registry
  | classDefinition .. | classOf .. => .classes
  | _ => .types

/-- The definition is what is asked for in `c`. -/
def Describes (c : Compilation) : Registration → Definition → Prop
  | typeDefinition _ d, x => x = .ofType d
  | classDefinition _ d, x => x = .ofClass d
  | definition _ ty s position, x => ∃ d : TypeDefinition, x = .ofType d ∧ d.symbol = s ∧
      d.ty = some ty ∧ c.nodes[position]? = some d.node
  | synthesized _ ty _ position, x => ∃ d : TypeDefinition, x = .ofType d ∧
      d.symbol = ⟨c.symbols.symbols.size⟩ ∧ d.ty = some ty ∧ c.nodes[position]? = some d.node
  | classOf _ s span, x => ∃ d : ClassDefinition, x = .ofClass d ∧ d.symbol = s ∧ d.span = span
  | anonymousRecord _ ty span, x => ∃ d : TypeDefinition, x = .ofType d ∧
      d.symbol = ⟨c.symbols.symbols.size⟩ ∧ d.ty = some ty ∧ d.span = span

/-- What is asked for belongs in that registry. -/
theorem Describes.registry_eq {c : Compilation} {r : Registration} {x : Definition}
    (h : r.Describes c x) : x.registry = r.registry := by
  cases r with
  | typeDefinition | classDefinition =>
    rw [h]
    rfl
  | definition | synthesized | classOf | anonymousRecord =>
    obtain ⟨d, rfl, -⟩ := h
    rfl

end Registration

/-- The environment of a command that registers under symbols of its own making only. -/
def Command.synthesizes? : Command → Option Environment
  | register (.synthesized env ..) | register (.anonymousRecord env ..) | buildField env ..
  | buildFields env .. | readonlyVariant env .. => some env
  | _ => none

namespace Compilation

variable {α : Type} {c c' : Compilation} {x : Definition} {n position : Nat}

/-- The definition with a number in a registry of a package. -/
def definition? (c : Compilation) (position : Nat) (r : Registry) (n : Nat) : Option Definition :=
  (c.packages[position]?).bind fun p => (p.definitions r)[n]?

/-- In `c'`, the definition has been entered with the number in the package at the position, under a
symbol that had none, and nothing else about the packages has changed. -/
def Enters (c : Compilation) (position : Nat) (x : Definition) (n : Nat) (c' : Compilation) :
    Prop :=
  ∃ p, c.packages[position]? = some p ∧ x.symbol ∉ p.symbols x.registry ∧
    n = (p.definitions x.registry).length ∧
    c'.packages = c.packages.setIfInBounds position (p.enter x)

theorem Enters.definition? (h : c.Enters position x n c') :
    c'.definition? position x.registry n = some x := by
  obtain ⟨p, hp, -, rfl, hpackages⟩ := h
  have hlt := (Array.getElem?_eq_some_iff.1 hp).1
  unfold Compilation.definition?
  rw [hpackages, Array.getElem?_setIfInBounds_self_of_lt hlt, Option.bind_some,
    Package.definitions_enter_self, List.getElem?_concat_length]

/-- What a session registers is registered in the compilation. -/
theorem ends_registering {env : Environment} {act : Context → Synth Nat} {D : Definition → Prop}
    (h : ∀ p, c.packages[env.package]? = some p →
      Ends (act ⟨c.settings, env.scopeOwner⟩) (c.session p {})
        (fun n t => ∃ x, D x ∧ (c.session p {}).Enters x n t) fun _ t => t.package = p) :
    Ends (synthesize env {} act) c (fun n c' => ∃ x, D x ∧ c.Enters env.package x n c')
      fun _ c' => c'.packages = c.packages := by
  cases hp : c.packages[env.package]? with
  | none => exact (ends_synthesize_of_none hp).2 rfl
  | some p =>
    refine (ends_synthesize hp).2 ((h p hp).imp ?_ fun _ t ht => packages_keep hp ht)
    rintro n t ⟨x, hx, hfree, hnumber, hpackage⟩
    refine ⟨x, hx, p, hp, hfree, hnumber, ?_⟩
    show c.packages.setIfInBounds env.package t.package = _
    rw [hpackage]
    rfl

end Compilation

open Compilation

/-- **A registration enters what was asked for**, or leaves the packages as they were. -/
theorem Registration.ends (r : Registration) (c : Compilation) :
    Ends r.action c (fun n c' => ∃ x, r.Describes c x ∧ c.Enters r.package x n c')
      fun _ c' => c'.packages = c.packages := by
  cases r with
  | typeDefinition position d =>
    refine ends_changePackage.2 ⟨fun _ => rfl, fun p hp => ⟨fun n q hq => ?_, fun _ _ => rfl⟩⟩
    obtain ⟨hfree, hnumber, rfl⟩ := Package.registerType_eq_ok_iff_enter.1 hq
    exact ⟨.ofType d, rfl, p, hp, hfree, hnumber, rfl⟩
  | classDefinition position d =>
    refine ends_changePackage.2 ⟨fun _ => rfl, fun p hp => ⟨fun n q hq => ?_, fun _ _ => rfl⟩⟩
    obtain ⟨hfree, hnumber, rfl⟩ := Package.registerClass_eq_ok_iff_enter.1 hq
    exact ⟨.ofClass d, rfl, p, hp, hfree, hnumber, rfl⟩
  | definition env ty s position =>
    refine ends_bind.2 (ends_node.2 ⟨fun node hnode => ends_registering fun p hp => ?_,
      fun _ => rfl⟩)
    refine (Synth.ends_registerDefinition ty node).imp ?_ fun _ t ht => by rw [ht.1]; rfl
    rintro n t ⟨-, d, hs, hty, rfl, henters⟩
    exact ⟨.ofType d, ⟨d, rfl, hs, hty, hnode⟩, henters⟩
  | synthesized env ty template position =>
    refine ends_bind.2 (ends_node.2 ⟨fun node hnode => ends_registering fun p hp => ?_,
      fun _ => rfl⟩)
    refine (Synth.ends_registerSynthesizedDefinition ty template node).imp ?_
      fun _ t ht => ht.1.package_eq
    rintro n t ⟨-, d, hs, hty, rfl, henters⟩
    exact ⟨.ofType d, ⟨d, rfl, hs, hty, hnode⟩, henters⟩
  | classOf env s span =>
    show Ends (synthesize env {} fun _ => Synth.registerClassOf span s) c _ _
    refine ends_registering fun p hp => ?_
    refine (Synth.ends_registerClassOf span).imp ?_ fun _ t ht => ht.package_eq
    rintro n t ⟨-, d, hs, hspan, henters⟩
    exact ⟨.ofClass d, ⟨d, rfl, hs, hspan⟩, henters⟩
  | anonymousRecord env ty span =>
    show Ends (synthesize env {} fun ctx => Synth.registerAnonymousRecord ctx ty span) c _ _
    refine ends_registering fun p hp => ?_
    refine (Synth.ends_registerAnonymousRecord ty span).imp ?_ fun _ t ht => ht.1.package_eq
    rintro n t ⟨-, d, hs, hty, hspan, henters⟩
    exact ⟨.ofType d, ⟨d, rfl, hs, hty, hspan⟩, henters⟩

namespace Compilation

variable {α : Type} {c c' : Compilation} {position : Nat} {env : Environment}

/-! ## How registrations are refused -/

/-- A change of a package fails as the change does, and changes nothing then. -/
theorem changePackage_eq_error_iff {p : Package} {change : Package → Except Stop (α × Package)}
    {e : Stop} (hp : c.packages[position]? = some p) :
    changePackage position change c = .error e c' ↔ c' = c ∧ change p = .error e := by
  have hends : Ends (changePackage position change) c (fun _ _ => ∃ r, change p = .ok r)
      fun e c' => c' = c ∧ change p = .error e := by
    refine ends_changePackage.2 ⟨fun hnone => ?_, fun p' hp' => ?_⟩
    · rw [hp] at hnone
      cases hnone
    · obtain rfl := Option.some.inj (hp.symm.trans hp')
      exact ⟨fun a q hq => ⟨_, hq⟩, fun e he => ⟨rfl, he⟩⟩
  constructor
  · exact (ends_iff.1 hends).2 e c'
  · rintro ⟨rfl, he⟩
    cases hact : changePackage position change c' with
    | ok a c'' =>
      obtain ⟨r, hr⟩ := (ends_iff.1 hends).1 a c'' hact
      cases he.symm.trans hr
    | error e' c'' =>
      obtain ⟨rfl, he'⟩ := (ends_iff.1 hends).2 e' c'' hact
      rw [Except.error.inj (he.symm.trans he')]

/-- No type definition of the package is registered ahead of its symbol. -/
def DefinitionsInRange (c : Compilation) (position : Nat) : Prop :=
  ∀ p, c.packages[position]? = some p → ∀ s ∈ p.symbols .types, s.index < c.symbols.symbols.size

/-- The action does not fail over duplicates. -/
def NeverDuplicate (c : Compilation) (act : Action α) : Prop :=
  Ends act c (fun _ _ => True) fun e _ => e.isDuplicate = false

/-- Neither does a steady operation, if the symbols of registered type definitions are there. -/
theorem neverDuplicate_synthesize {slots : CloneSlots} {act : Context → Synth α}
    (hrange : c.DefinitionsInRange env.package) (hsteady : ∀ ctx, Synth.Steady true (act ctx)) :
    NeverDuplicate c (synthesize env slots act) := by
  cases hp : c.packages[env.package]? with
  | none => exact (ends_synthesize_of_none hp).2 rfl
  | some p =>
    exact (ends_synthesize hp).2 ((hsteady _ _).imp (fun _ _ _ => trivial)
      fun _ _ he => he.2 (hrange p hp))

theorem NeverDuplicate.discarded {act : Action α} (h : NeverDuplicate c act) :
    NeverDuplicate c (discard act) :=
  ends_discard.2 (h.imp (fun _ _ _ => trivial) fun _ _ he => he)

/-- The structure of a stored node is read, and nothing is changed. -/
theorem ends_structureNode (position : Nat) :
    Ends (structureNode position) c (fun _ c' => c' = c) fun e c' =>
      c' = c ∧ e.isDuplicate = false := by
  refine ends_bind.2 (ends_node.2 ⟨fun node _ => ?_, fun _ => ⟨rfl, rfl⟩⟩)
  split
  · rfl
  · exact ⟨rfl, rfl⟩

section Fresh

variable (hrange : c.DefinitionsInRange env.package)
include hrange

theorem neverDuplicate_registerSynthesizedDefinition (ty : TypeId) (template : SymbolId) :
    NeverDuplicate c (registerSynthesizedDefinition env ty template position) := by
  refine ends_bind.2 (ends_node.2 ⟨fun node _ => ?_, fun _ => rfl⟩)
  exact neverDuplicate_synthesize hrange fun _ =>
    Synth.steady_registerSynthesizedDefinition ty template node

theorem neverDuplicate_registerAnonymousRecord (ty : TypeId) (span : Span) :
    NeverDuplicate c (registerAnonymousRecord env ty span) :=
  neverDuplicate_synthesize hrange fun _ => Synth.steady_registerAnonymousRecord ty span

theorem neverDuplicate_buildField (memo : Option Nat) (pending : Nat) (plan : FieldPlan)
    (template : Field) : NeverDuplicate c (buildField env memo pending plan template) :=
  neverDuplicate_synthesize hrange fun ctx =>
    Synth.steady_buildField (steady_cloner? _ ctx) plan template

theorem neverDuplicate_buildFields (memo : Option Nat) (pending : Nat) (p : Population) :
    NeverDuplicate c (buildFields env memo pending p position) := by
  refine ends_bind.2 (ends_node.2 ⟨fun tree _ => ?_, fun _ => rfl⟩)
  refine ends_bind.2 ((ends_structureNode position).imp ?_ fun _ _ he => he.2)
  rintro before _ rfl
  refine ends_bind.2 ((neverDuplicate_synthesize hrange fun ctx => ?_).imp
    (fun after c' _ => trivial) fun _ _ he => he)
  exact Synth.steady_buildFields (steady_cloner? _ ctx) p before

theorem neverDuplicate_readonlyVariant (slots : CloneSlots) (stamp : Stamp) (ty : TypeId) :
    NeverDuplicate c (readonlyVariant env slots stamp ty) :=
  neverDuplicate_synthesize hrange fun ctx => Synth.steady_readonlyVariant ctx stamp ty

/-- **A command that registers under symbols of its own making never fails over duplicates**, if no
definition was registered ahead. -/
theorem neverDuplicate_action {command : Command} (h : command.synthesizes? = some env) :
    NeverDuplicate c command.action := by
  cases command with
  | register r =>
    cases r with
    | synthesized =>
      cases h
      exact (neverDuplicate_registerSynthesizedDefinition hrange _ _).discarded
    | anonymousRecord =>
      cases h
      exact (neverDuplicate_registerAnonymousRecord hrange _ _).discarded
    | _ => cases h
  | buildField =>
    cases h
    exact (neverDuplicate_buildField hrange _ _ _ _).discarded
  | buildFields =>
    cases h
    exact neverDuplicate_buildFields hrange _ _ _
  | readonlyVariant =>
    cases h
    exact (neverDuplicate_readonlyVariant hrange _ _ _).discarded
  | _ => cases h

end Fresh

/-- How registrations are answered and refused in a compilation. -/
structure RegistersOnce (c : Compilation) : Prop where
  /-- One that succeeds has entered what was asked for. -/
  entered : ∀ (r : Registration) n c', r.action c = .ok n c' →
    ∃ x, r.Describes c x ∧ c.Enters r.package x n c'
  /-- One that fails has entered nothing. -/
  refused : ∀ (r : Registration) e c', r.action c = .error e c' → c'.packages = c.packages
  /-- A type definition is refused exactly if its symbol has one. -/
  type_taken : ∀ (position : Nat) p, c.packages[position]? = some p → ∀ d e c',
    (Registration.typeDefinition position d).action c = .error e c' ↔
      c' = c ∧ d.symbol ∈ p.symbols .types ∧ e = Fault.typeDefined d.name.name d.symbol p.id
  /-- A class definition is refused exactly if its symbol has one. -/
  class_taken : ∀ (position : Nat) p, c.packages[position]? = some p → ∀ d e c',
    (Registration.classDefinition position d).action c = .error e c' ↔
      c' = c ∧ d.symbol ∈ p.symbols .classes ∧ e = Fault.classDefined d.symbol p.id
  /-- So is the definition of a type under a symbol that is there. -/
  definition_taken : ∀ (env : Environment) ty (s : SymbolId) position p node,
    c.packages[env.package]? = some p → c.nodes[position]? = some node →
      s.index < c.symbols.symbols.size →
        ((∃ e c', (Registration.definition env ty s position).action c = .error e c') ↔
          s ∈ p.symbols .types)
  /-- One under a symbol made for it is never refused as a duplicate, if no definition was
  registered ahead. -/
  fresh : ∀ (command : Command) env, command.synthesizes? = some env →
    c.DefinitionsInRange env.package →
      ∀ e c', command.action c = .error e c' → e.isDuplicate = false

theorem registersOnce (c : Compilation) : c.RegistersOnce := by
  refine ⟨fun r n c' h => (ends_iff.1 (r.ends c)).1 n c' h,
    fun r e c' h => (ends_iff.1 (r.ends c)).2 e c' h, fun position p hp d e c' => ?_,
    fun position p hp d e c' => ?_, fun env ty s position p node hp hnode hs => ?_,
    fun command env h hrange e c' he =>
      (ends_iff.1 (neverDuplicate_action hrange h)).2 e c' he⟩
  · rw [show (Registration.typeDefinition position d).action c =
      changePackage position (·.registerType d) c from rfl, changePackage_eq_error_iff hp,
      Package.registerType_eq_error_iff, Package.symbols_types]
  · rw [show (Registration.classDefinition position d).action c =
      changePackage position (·.registerClass d) c from rfl, changePackage_eq_error_iff hp,
      Package.registerClass_eq_error_iff, Package.symbols_classes]
  · have hends : Ends (Registration.definition env ty s position).action c
        (fun _ _ => s ∉ p.symbols .types) fun _ _ => s ∈ p.symbols .types := by
      refine ends_bind.2 (ends_node.2 ⟨fun node' _ => ?_, fun hnone => ?_⟩)
      · refine (ends_synthesize hp).2 ((Synth.ends_registerDefinition ty node').imp ?_
          fun _ t ht => ht.2 hs)
        rintro n t ⟨-, d, rfl, -, -, henters⟩
        exact henters.free
      · rw [hnode] at hnone
        cases hnone
    constructor
    · rintro ⟨e, c', he⟩
      exact (ends_iff.1 hends).2 e c' he
    · intro hmem
      cases hact : (Registration.definition env ty s position).action c with
      | ok n c' => exact absurd hmem ((ends_iff.1 hends).1 n c' hact)
      | error e c' => exact ⟨e, c', rfl⟩

/-! ## Runs -/

/-- A definition that has a number keeps it. -/
theorem PackagesDevelop.definition? {r : Registry} {n : Nat} {x : Definition}
    (h : PackagesDevelop c.packages c'.packages) (hx : c.definition? position r n = some x) :
    c'.definition? position r n = some x := by
  obtain ⟨p, hp, hx⟩ := Option.bind_eq_some_iff.1 hx
  obtain ⟨q, hq, hwrites⟩ := h.kept position p hp
  exact Option.bind_eq_some_iff.2 ⟨q, hq, (Package.DefinitionsGrow.of_writes hwrites).getElem? hx⟩

/-- No symbol gets two definitions in one registry of a package. -/
theorem PackagesDevelop.distinct (h : PackagesDevelop c.packages c'.packages)
    (hc : ∀ p ∈ c.packages, p.Distinct) : ∀ q ∈ c'.packages, q.Distinct := by
  intro q hq
  obtain ⟨i, hi⟩ := Array.getElem?_of_mem hq
  cases hp : c.packages[i]? with
  | none =>
    obtain ⟨id, name, hwrites⟩ := h.opened i q hp hi
    exact (Package.distinct_empty id name).writes hwrites
  | some p =>
    obtain ⟨q', hq', hwrites⟩ := h.kept i p hp
    obtain rfl := Option.some.inj (hq'.symm.trans hi)
    exact (hc p (Array.mem_of_getElem? hp)).writes hwrites

/-- **Over a whole run**, symbols have one definition in each registry of a package, registries get
definitions at their ends only, registrations are refused as `RegistersOnce` says, and the number
that one has given back leads to what it has entered ever after. -/
theorem registry_execute (c : Compilation) (commands : List Command)
    (hdistinct : ∀ p ∈ c.packages, p.Distinct) :
    (∀ pre, pre <+: commands →
      (∀ p ∈ (c.execute pre).packages, p.Distinct) ∧ (c.execute pre).RegistersOnce) ∧
    (∀ pre post, pre <+: post → post <+: commands →
      ∀ (position : Nat) p, (c.execute pre).packages[position]? = some p →
        ∃ q, (c.execute post).packages[position]? = some q ∧ p.DefinitionsGrow q) ∧
    ∀ pre r post n c', pre ++ [.register r] <+: post → post <+: commands →
      r.action (c.execute pre) = .ok n c' → ∃ x, r.Describes (c.execute pre) x ∧
        (c.execute post).definition? r.package r.registry n = some x := by
  refine ⟨fun pre _ => ⟨?_, registersOnce _⟩, fun pre post hpre _ position p hp => ?_,
    fun pre r post n c' hpre _ hok => ?_⟩
  · exact (develops_packages_execute c pre).distinct hdistinct
  · obtain ⟨q, hq, hwrites⟩ := (develops_packages_between c hpre).kept position p hp
    exact ⟨q, hq, .of_writes hwrites⟩
  · obtain ⟨x, hdescribes, henters⟩ := (registersOnce _).entered r n c' hok
    have hafter : c.execute (pre ++ [.register r]) = c' :=
      (execute_concat c pre _).trans (after_discard_of_ok hok)
    refine ⟨x, hdescribes, (develops_packages_between c hpre).definition? ?_⟩
    rw [hafter, ← hdescribes.registry_eq]
    exact henters.definition?

/-- A definition is registered, then again in vain, and three more under new symbols. -/
def registrations : List Command :=
  [.addPackage ⟨0⟩ "app", .addSymbol .typeDefinition { name := "T", package := ⟨0⟩, span := {} },
    .addSymbol (.type {}) { name := "R", package := ⟨0⟩, span := {} },
    .addType { ty := .record {}, symbol := some ⟨1⟩ }, .addNode (.plainError {} none),
    .register (.definition ⟨0, ⟨0⟩⟩ ⟨14⟩ ⟨0⟩ 0), .register (.definition ⟨0, ⟨0⟩⟩ ⟨14⟩ ⟨0⟩ 0),
    .register (.synthesized ⟨0, ⟨0⟩⟩ ⟨14⟩ ⟨1⟩ 0),
    .readonlyVariant ⟨0, ⟨0⟩⟩ {} ⟨{}, ⟨0⟩, ⟨0⟩⟩ ⟨14⟩,
    .register (.anonymousRecord ⟨0, ⟨0⟩⟩ ⟨14⟩ {})]

theorem execute_registrations :
    (∀ p ∈ ((∅ : Compilation).execute registrations).packages, p.Distinct) ∧
      ∃ d : TypeDefinition, d.symbol = ⟨2⟩ ∧
        ((∅ : Compilation).execute registrations).definition? 0 .types 1 = some (.ofType d) := by
  obtain ⟨hstates, -, hnumbers⟩ :=
    registry_execute ∅ registrations fun p hp => absurd hp (Array.not_mem_empty p)
  refine ⟨(hstates registrations List.prefix_rfl).1, ?_⟩
  obtain ⟨x, ⟨d, rfl, hsymbol, -⟩, hx⟩ := hnumbers (registrations.take 7)
    (.synthesized ⟨0, ⟨0⟩⟩ ⟨14⟩ ⟨1⟩ 0) registrations 1 _ (List.take_prefix 8 registrations)
    List.prefix_rfl rfl
  exact ⟨d, hsymbol, hx⟩

end Compilation

end StructuralTypes
