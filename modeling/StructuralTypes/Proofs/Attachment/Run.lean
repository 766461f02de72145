import StructuralTypes.Proofs.Action
import StructuralTypes.Proofs.Attachment.Session
import StructuralTypes.Proofs.Readonly.Mirror

/-!
# Recorded initializers along a run

A compilation goes through operations of a synthesis in any order, answered or not, and each keeps
what it has done. At first no symbol records an initializer.

All records are borne out in all states of a run as long as no anonymous record is registered whose
symbol records an initializer. That operation breaks the record: the symbol gets a new scope, and
the initializer stays behind in the old one.

Results:
* `perform_linksBound_iff`: what one operation does to the records.
* **`run_linksBound_iff`**: what a run does to them.
* `initialized_overtaken`: an initializer that is recorded but not bound any more.
-/

namespace StructuralTypes

/-- An operation of a synthesis, or a step that prepares one. -/
inductive Operation
  /-- The settings are replaced. -/
  | configure (settings : Settings)
  /-- A node is stored. -/
  | addNode (node : TypeNode)
  /-- The structure of a stored node gets its initializer. -/
  | attachInitializer (env : Environment) (position : Nat)
  /-- A field is built. -/
  | buildField (env : Environment) (memo : Option Nat) (pending : Nat) (plan : FieldPlan)
    (template : Field)
  /-- All fields of a structure are built. -/
  | buildFields (env : Environment) (memo : Option Nat) (pending : Nat) (p : Population)
    (position : Nat)
  /-- An anonymous record is registered. -/
  | registerAnonymousRecord (env : Environment) (ty : TypeId) (span : Span)
  /-- A definition is registered. -/
  | registerDefinition (env : Environment) (ty : TypeId) (s : SymbolId) (position : Nat)
  /-- A definition is registered under a new symbol. -/
  | registerSynthesizedDefinition (env : Environment) (ty : TypeId) (template : SymbolId)
    (position : Nat)
  /-- A class is registered. -/
  | registerClassOf (env : Environment) (classSymbol : SymbolId) (span : Span)
  /-- The readonly variant of a type is requested. -/
  | readonlyVariant (env : Environment) (slots : CloneSlots) (stamp : Stamp) (ty : TypeId)

namespace Compilation

open Synth
open SymbolTable (LinksBound robust_linksBound)

variable {c : Compilation}

/-- Where the compilation is after an operation. -/
def perform (c : Compilation) : Operation → Compilation
  | .configure settings => c.after (configure settings)
  | .addNode node => c.after (addNode node)
  | .attachInitializer env position => c.after (attachInitializer env position)
  | .buildField env memo pending plan template =>
    c.after (buildField env memo pending plan template)
  | .buildFields env memo pending p position => c.after (buildFields env memo pending p position)
  | .registerAnonymousRecord env ty span => c.after (registerAnonymousRecord env ty span)
  | .registerDefinition env ty s position => c.after (registerDefinition env ty s position)
  | .registerSynthesizedDefinition env ty template position =>
    c.after (registerSynthesizedDefinition env ty template position)
  | .registerClassOf env classSymbol span => c.after (registerClassOf env classSymbol span)
  | .readonlyVariant env slots stamp ty => c.after (readonlyVariant env slots stamp ty)

/-- Where the compilation is after operations, one after the other. -/
def run (c : Compilation) (ops : List Operation) : Compilation := ops.foldl perform c

/-- The registration of `ty` as an anonymous record would give a new scope to a symbol that records
an initializer. -/
def Reopens (c : Compilation) (env : Environment) (ty : TypeId) : Prop :=
  ∃ package, c.packages[env.package]? = some package ∧
    Synth.Reopens ⟨c.settings, env.scopeOwner⟩ ty (c.session package {})

/-! ## Operations -/

/-- The cloner of a context leaves all records borne out. -/
theorem linksBound_cloner? (wanted : Bool) (ctx : Context) :
    ∀ cl ∈ cloner? wanted ctx, ∀ stamp ty, Upholds (LinksBound ·.symbols) (cl stamp ty) := by
  intro cl hcl
  obtain rfl := eq_of_mem_cloner? hcl
  exact upholds_readonlyVariant ctx

theorem linksBound_attachInitializer (env : Environment) (position : Nat) :
    Upholds (LinksBound ·.symbols) (attachInitializer env position) :=
  Compilation.upholds_attachInitializer (fun _ _ h => h) fun node =>
    upholds_symbols_synthesize fun ctx => Synth.upholds_attachInitializer ctx node

theorem linksBound_buildFields (env : Environment) (memo : Option Nat) (pending : Nat)
    (p : Population) (position : Nat) :
    Upholds (LinksBound ·.symbols) (buildFields env memo pending p position) :=
  Compilation.upholds_buildFields (fun _ _ h => h) fun node => upholds_symbols_synthesize fun ctx =>
    Synth.upholds_buildFields robust_linksBound (linksBound_cloner? _ ctx) p node

theorem linksBound_buildField (env : Environment) (memo : Option Nat) (pending : Nat)
    (plan : FieldPlan) (template : Field) :
    Upholds (LinksBound ·.symbols) (buildField env memo pending plan template) :=
  upholds_symbols_synthesize fun ctx =>
    Synth.upholds_buildField robust_linksBound (linksBound_cloner? _ ctx) plan template

theorem linksBound_registerDefinition (env : Environment) (ty : TypeId) (s : SymbolId)
    (position : Nat) :
    Upholds (LinksBound ·.symbols) (registerDefinition env ty s position) := by
  refine (upholds_reading _).bind fun tree => upholds_symbols_synthesize fun _ => ?_
  exact Synth.upholds_registerDefinition ty s tree

theorem linksBound_registerSynthesizedDefinition (env : Environment) (ty : TypeId)
    (template : SymbolId) (position : Nat) :
    Upholds (LinksBound ·.symbols) (registerSynthesizedDefinition env ty template position) := by
  refine (upholds_reading _).bind fun tree => upholds_symbols_synthesize fun _ => ?_
  exact Synth.upholds_registerSynthesizedDefinition ty template tree

theorem linksBound_registerClassOf (env : Environment) (classSymbol : SymbolId) (span : Span) :
    Upholds (LinksBound ·.symbols) (registerClassOf env classSymbol span) :=
  upholds_symbols_synthesize fun _ => Synth.upholds_registerClassOf span classSymbol

theorem linksBound_readonlyVariant (env : Environment) (slots : CloneSlots) (stamp : Stamp)
    (ty : TypeId) : Upholds (LinksBound ·.symbols) (readonlyVariant env slots stamp ty) :=
  upholds_symbols_synthesize fun ctx => Synth.upholds_readonlyVariant ctx stamp ty

/-- The registration of an anonymous record leaves the records borne out exactly if it gives no new
scope to a symbol that records an initializer. -/
theorem registerAnonymousRecord_linksBound_iff (h : c.symbols.LinksBound) (env : Environment)
    (ty : TypeId) (span : Span) :
    (c.after (registerAnonymousRecord env ty span)).symbols.LinksBound ↔ ¬c.Reopens env ty := by
  unfold registerAnonymousRecord
  cases hpackage : c.packages[env.package]? with
  | none =>
    refine iff_of_true (Ends.after (P := (·.symbols.LinksBound)) ?_) ?_
    · exact (ends_synthesize_of_none hpackage).2 h
    rintro ⟨package, hsome, -⟩
    simp [hpackage] at hsome
  | some package =>
    have hreopens : c.Reopens env ty ↔
        Synth.Reopens ⟨c.settings, env.scopeOwner⟩ ty (c.session package {}) := by
      simp [Reopens, hpackage]
    rw [hreopens]
    have hends := Synth.registerAnonymousRecord_linksBound_iff ty span (s := c.session package {})
      h ⟨c.settings, env.scopeOwner⟩
    exact Ends.after (P := fun c' => c'.symbols.LinksBound ↔
      ¬Synth.Reopens ⟨c.settings, env.scopeOwner⟩ ty (c.session package {}))
        ((ends_synthesize hpackage).2 hends)

/-- **After an operation the records are borne out, unless it has given a new scope to a symbol that
records an initializer.** -/
theorem perform_linksBound_iff (h : c.symbols.LinksBound) (op : Operation) :
    (c.perform op).symbols.LinksBound ↔
      ∀ env ty span, op = .registerAnonymousRecord env ty span → ¬c.Reopens env ty := by
  cases op with
  | registerAnonymousRecord env ty span =>
    refine (registerAnonymousRecord_linksBound_iff h env ty span).trans ⟨?_, ?_⟩
    · rintro hno _ _ _ ⟨⟩
      exact hno
    · exact fun hno => hno env ty span rfl
  | configure settings => exact iff_of_true h (by simp)
  | addNode node => exact iff_of_true h (by simp)
  | attachInitializer env position =>
    exact iff_of_true ((linksBound_attachInitializer env position).after h) (by simp)
  | buildField env memo pending plan template =>
    exact iff_of_true ((linksBound_buildField env memo pending plan template).after h) (by simp)
  | buildFields env memo pending p position =>
    exact iff_of_true ((linksBound_buildFields env memo pending p position).after h) (by simp)
  | registerDefinition env ty s position =>
    exact iff_of_true ((linksBound_registerDefinition env ty s position).after h) (by simp)
  | registerSynthesizedDefinition env ty template position =>
    exact iff_of_true ((linksBound_registerSynthesizedDefinition env ty template position).after h)
      (by simp)
  | registerClassOf env classSymbol span =>
    exact iff_of_true ((linksBound_registerClassOf env classSymbol span).after h) (by simp)
  | readonlyVariant env slots stamp ty =>
    exact iff_of_true ((linksBound_readonlyVariant env slots stamp ty).after h) (by simp)

/-! ## Runs -/

/-- A run is an operation and a run. -/
theorem run_cons (c : Compilation) (op : Operation) (ops : List Operation) :
    c.run (op :: ops) = (c.perform op).run ops := rfl

/-- What the operations do to the records if they are borne out at first. -/
theorem run_linksBound_iff_of_linksBound (h : c.symbols.LinksBound) (ops : List Operation) :
    (∀ pre, pre <+: ops → (c.run pre).symbols.LinksBound) ↔
      ∀ pre env ty span, pre ++ [.registerAnonymousRecord env ty span] <+: ops →
        ¬(c.run pre).Reopens env ty := by
  induction ops generalizing c with
  | nil =>
    refine iff_of_true (fun pre hpre => ?_) fun pre env ty span hpre => ?_
    · rw [List.prefix_nil.1 hpre]
      exact h
    · simp at hpre
  | cons op ops ih =>
    have hop := perform_linksBound_iff h op
    constructor
    · intro hall pre env ty span hpre
      cases pre with
      | nil =>
        obtain ⟨rfl, -⟩ := List.cons_prefix_cons.1 hpre
        exact hop.1 (hall [_] (List.prefix_append [_] ops)) env ty span rfl
      | cons op' pre =>
        obtain ⟨rfl, hrest⟩ := List.cons_prefix_cons.1 hpre
        rw [run_cons]
        refine (ih (hall [_] (List.prefix_append [_] ops))).1 (fun pre' hpre' => ?_) pre env ty span
          hrest
        exact hall (_ :: pre') (List.cons_prefix_cons.2 ⟨rfl, hpre'⟩)
    · intro hnone pre hpre
      cases pre with
      | nil => exact h
      | cons op' pre =>
        obtain ⟨rfl, hrest⟩ := List.cons_prefix_cons.1 hpre
        have hnext : (c.perform _).symbols.LinksBound := hop.2 fun env ty span heq =>
          hnone [] env ty span (heq ▸ List.prefix_append [_] ops)
        refine (ih hnext).2 (fun pre' env ty span hpre' => ?_) pre hrest
        exact hnone (_ :: pre') env ty span (List.cons_prefix_cons.2 ⟨rfl, hpre'⟩)

/-- **In all states of a run all recorded initializers are bound exactly if no anonymous record is
registered whose symbol has recorded one by then.** At first no symbol records an initializer. -/
theorem run_linksBound_iff (c : Compilation) (ops : List Operation)
    (hc : ∀ named ∈ c.symbols.symbols.toList, named.initializer? = none) :
    (∀ pre, pre <+: ops → (c.run pre).symbols.LinksBound) ↔
      ∀ pre env ty span, pre ++ [.registerAnonymousRecord env ty span] <+: ops →
        ¬(c.run pre).Reopens env ty := by
  refine run_linksBound_iff_of_linksBound ?_ ops
  refine SymbolTable.linksBound_of_forall_not ?_
  rintro x link ⟨named, hx, hlink⟩
  have hmem := Array.mem_toList_iff.2 (Array.mem_of_getElem? (SymbolTable.find_eq_ok_iff.1 hx))
  simp [hc named hmem] at hlink

/-- An anonymous record, with a scope for its symbol and a stored node. -/
def anonymous : Compilation :=
  let c := app [("$anonType$_0", ⟨14⟩)] [appRecord ⟨1⟩ []]
  { c with
    symbols :=
      { symbols := c.symbols.symbols.modify 1 fun s => { s with scope := some ⟨0⟩ }
        scopes := #[{ id := ⟨0⟩, owner := ⟨1⟩ }] }
    nodes := #[.record { ty := some ⟨14⟩, symbol := some ⟨1⟩ }] }

/-- It may be registered first and initialized then. -/
theorem anonymous_linksBound :
    (∀ named ∈ anonymous.symbols.symbols.toList, named.initializer? = none) ∧
      ∀ pre, pre <+: [.registerAnonymousRecord ⟨0, ⟨0⟩⟩ ⟨14⟩ {}, .attachInitializer ⟨0, ⟨0⟩⟩ 0] →
        (anonymous.run pre).symbols.LinksBound := by
  have hnone : ∀ named ∈ anonymous.symbols.symbols.toList, named.initializer? = none := by decide
  refine ⟨hnone, (run_linksBound_iff anonymous _ hnone).2 fun pre env ty span hpre => ?_⟩
  cases pre with
  | nil =>
    rintro ⟨_, _, _, _, y, link, _, _, _, ⟨named, hfind, hlink⟩, _⟩
    have hmem := Array.mem_of_getElem? (SymbolTable.find_eq_ok_iff.1 hfind)
    simp [hnone named (Array.mem_toList_iff.2 hmem)] at hlink
  | cons op pre =>
    obtain ⟨-, hpre⟩ := List.cons_prefix_cons.1 hpre
    cases pre with
    | nil => simp [List.cons_prefix_cons] at hpre
    | cons op pre => simp [List.cons_prefix_cons] at hpre

/-- Once it is initialized, its registration leaves the initializer behind: it is recorded, but not
bound. -/
theorem initialized_overtaken :
    (∀ named ∈ anonymous.symbols.symbols.toList, named.initializer? = none) ∧
      ¬∀ pre, pre <+: [.attachInitializer ⟨0, ⟨0⟩⟩ 0,
        .registerAnonymousRecord ⟨0, ⟨0⟩⟩ ⟨14⟩ {}] → (anonymous.run pre).symbols.LinksBound := by
  refine ⟨by decide, fun h => ?_⟩
  obtain ⟨c', hc'⟩ : ∃ c', c' = anonymous.run [.attachInitializer ⟨0, ⟨0⟩⟩ 0,
    .registerAnonymousRecord ⟨0, ⟨0⟩⟩ ⟨14⟩ {}] := ⟨_, rfl⟩
  have hbound : c'.symbols.LinksBound := hc' ▸ h _ List.prefix_rfl
  have hsymbol : (c'.symbols.symbols[1]?).map (fun named => (named.initializer?, named.scope)) =
      some (some ⟨"$anonType$_0.init", ⟨3⟩, ⟨15⟩, {}⟩, some ⟨3⟩) := by
    rw [hc']
    decide +kernel
  have hscope : (c'.symbols.scopes[3]?).map (·.bindings) = some ∅ := by
    rw [hc']
    decide +kernel
  obtain ⟨named, hnamed, hlinks⟩ := Option.map_eq_some_iff.1 hsymbol
  obtain ⟨scope, hfound, hempty⟩ := Option.map_eq_some_iff.1 hscope
  obtain ⟨hlink, hid⟩ := Prod.mk.inj hlinks
  have hfind : c'.symbols.find ⟨1⟩ = .ok named := SymbolTable.find_eq_ok_iff.2 hnamed
  obtain ⟨⟨named', id, scope', hfind', hid', hscope', hget⟩, -⟩ :=
    hbound ⟨1⟩ _ ⟨named, hfind, hlink⟩
  obtain rfl := Except.ok.inj (hfind.symm.trans hfind')
  obtain rfl := Option.some.inj (hid.symm.trans hid')
  rw [SymbolTable.findScope_eq_ok_iff, hfound] at hscope'
  obtain rfl := Option.some.inj hscope'
  simp [Scope.get?, hempty] at hget

end Compilation

end StructuralTypes
