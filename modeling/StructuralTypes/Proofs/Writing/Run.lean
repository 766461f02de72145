import StructuralTypes.Proofs.Command
import StructuralTypes.Proofs.Writing.Synthesis

/-!
# What a run writes

Every command writes to the symbol table in order, except the one that overwrites a symbol as a
whole, and every command writes to the packages in order: it opens one, or registers definitions and
appends imports in some that are there. It does so also when it stops on its way, since what its
session has done is kept.

Results:
* `develops_onTables`, `develops_synthesize`: what a session writes, the compilation keeps.
* **`Command.develops`**, `Command.develops_packages`: one command.
* `develops_execute`, `develops_packages_execute`: a run of them.
-/

namespace StructuralTypes

/-- Whether the command replaces a symbol by another one as a whole. -/
def Command.overwritesSymbol : Command → Bool
  | setSymbol .. => true
  | _ => false

/-! ## Sessions -/

namespace Synth

variable {α : Type} {x : Synth α}

/-- All that the operation does is writing, whatever it registers. -/
def Writing (x : Synth α) : Prop :=
  ∀ s, Ends x s (fun _ t => s.Writes true 0 t) fun _ t => s.Writes true 0 t

theorem Steady.writing (hx : Steady true x) : Writing x := fun s =>
  (hx s).imp (fun _ _ h => Session.Writes.mono h (Nat.zero_le _))
    fun _ _ h => Session.Writes.mono h.1 (Nat.zero_le _)

theorem writing_registerDefinition (ty : TypeId) (y : SymbolId) (node : TypeNode) :
    Writing (registerDefinition ty y node) := by
  refine fun s => (ends_registerDefinition ty node).imp (fun _ _ h => h.1) ?_
  rintro _ _ ⟨rfl, -⟩
  exact .refl

theorem writing_registerClassOf (span : Span) (y : SymbolId) : Writing (registerClassOf span y) :=
  fun _ => (ends_registerClassOf span).imp (fun _ _ h => h.1)
    fun _ _ h => (Session.Writes.mono h (Nat.zero_le _)).weaken

end Synth

namespace Compilation

/-! ## Packages -/

/-- The packages of `a` are in `b` at the same positions, and have been written to at most. Those
that are new were opened empty. -/
structure PackagesDevelop (a b : Array Package) : Prop where
  /-- A package that was there is there. -/
  kept : ∀ (i : Nat) (p : Package), a[i]? = some p → ∃ q, b[i]? = some q ∧ p.Writes q
  /-- A package that was not there was opened. -/
  opened : ∀ (i : Nat) (q : Package), a[i]? = none → b[i]? = some q →
    ∃ id name, ({ id, name } : Package).Writes q

namespace PackagesDevelop

variable {a b d : Array Package} {p q : Package} {i : Nat}

theorem refl (a : Array Package) : PackagesDevelop a a where
  kept _ p hp := ⟨p, hp, .refl⟩
  opened i q hnone hq := by
    rw [hnone] at hq
    cases hq

theorem trans (h : PackagesDevelop a b) (h' : PackagesDevelop b d) : PackagesDevelop a d where
  kept i p hp := by
    obtain ⟨q, hq, hwrites⟩ := h.kept i p hp
    obtain ⟨r, hr, hwrites'⟩ := h'.kept i q hq
    exact ⟨r, hr, hwrites.trans hwrites'⟩
  opened i r hnone hr := by
    cases hb : b[i]? with
    | none => exact h'.opened i r hb hr
    | some q =>
      obtain ⟨id, name, hwrites⟩ := h.opened i q hnone hb
      obtain ⟨r', hr', hwrites'⟩ := h'.kept i q hb
      obtain rfl := Option.some.inj (hr'.symm.trans hr)
      exact ⟨id, name, hwrites.trans hwrites'⟩

/-- One package is written to. -/
theorem set (hp : a[i]? = some p) (h : p.Writes q) : PackagesDevelop a (a.setIfInBounds i q) where
  kept j r hr := by
    by_cases hij : i = j
    · subst hij
      obtain rfl := Option.some.inj (hp.symm.trans hr)
      exact ⟨q, Array.getElem?_setIfInBounds_self_of_lt (Array.getElem?_eq_some_iff.1 hp).1, h⟩
    · exact ⟨r, by rwa [Array.getElem?_setIfInBounds_ne hij], .refl⟩
  opened j r hnone hr := by
    have hsize : (a.setIfInBounds i q).size ≤ j := by
      rw [Array.size_setIfInBounds]
      exact Array.getElem?_eq_none_iff.1 hnone
    rw [Array.getElem?_eq_none_iff.2 hsize] at hr
    cases hr

/-- A package is opened. -/
theorem push (a : Array Package) (id : PackageId) (name : String) :
    PackagesDevelop a (a.push { id, name }) where
  kept i p hp := ⟨p, (Grows.push a _).getElem? hp, .refl⟩
  opened i q hnone hq := by
    rw [Array.getElem?_push] at hq
    split at hq
    · obtain rfl := Option.some.inj hq
      exact ⟨id, name, .refl⟩
    · rw [hnone] at hq
      cases hq

end PackagesDevelop

/-! ## Compilations -/

variable {α β : Type} {c c' c'' : Compilation} {act : Action α}

/-- From `c` to `c'`, symbols and packages are written to in order. -/
structure Develops (c c' : Compilation) : Prop where
  /-- The symbols. -/
  symbols : c.symbols.Writes c'.symbols
  /-- The packages. -/
  packages : PackagesDevelop c.packages c'.packages

theorem Develops.refl (c : Compilation) : c.Develops c := ⟨.refl, .refl _⟩

theorem Develops.trans (h : c.Develops c') (h' : c'.Develops c'') : c.Develops c'' :=
  ⟨h.symbols.trans h'.symbols, h.packages.trans h'.packages⟩

/-- A step that writes in order may come after what has done so. -/
theorem upholds_develops (h : ∀ c', Ends act c' (fun _ c'' => c'.Develops c'')
    fun _ c'' => c'.Develops c'') : Upholds c.Develops act := fun c' hc' =>
  (h c').imp (fun _ _ hc'' => hc'.trans hc'') fun _ _ hc'' => hc'.trans hc''

/-- What a session without a package writes, the compilation keeps. -/
theorem develops_onTables {x : Synth α} (hx : Synth.Writing x) :
    Upholds c.Develops (onTables x) := by
  refine upholds_develops fun c' => ends_onTables.2 ((hx _).imp (fun a t h => ?_) fun e t h => ?_)
  · exact ⟨Session.Writes.symbols h, .refl _⟩
  · exact ⟨Session.Writes.symbols h, .refl _⟩

/-- What a session writes, the compilation keeps. -/
theorem develops_synthesize {env : Environment} {slots : CloneSlots} {act : Context → Synth α}
    (h : ∀ ctx, Synth.Writing (act ctx)) : Upholds c.Develops (synthesize env slots act) := by
  refine upholds_synthesize fun c' p hc' hp => ?_
  have hkeep : ∀ t, (c'.session p slots).Writes true 0 t →
      c.Develops (c'.keep env.package slots t) := fun t ht =>
    hc'.trans ⟨Session.Writes.symbols ht, .set hp (Session.Writes.package ht)⟩
  exact (h _ _).imp (fun _ t ht => hkeep t ht) fun _ t ht => hkeep t ht

/-! ## Nodes and packages -/

/-- Stored nodes do not matter. -/
theorem Develops.nodes {c' : Compilation} (nodes : Array TypeNode) (h : c.Develops c') :
    c.Develops { c' with nodes } :=
  ⟨h.symbols, h.packages⟩

theorem develops_addPackage (id : PackageId) (name : String) :
    Upholds c.Develops (addPackage id name) :=
  upholds_develops fun c' => ⟨.refl, .push c'.packages id name⟩

/-- A package is written to. -/
theorem develops_changePackage {position : Nat} {change : Package → Except Stop (α × Package)}
    (h : ∀ p a q, change p = .ok (a, q) → p.Write q) :
    Upholds c.Develops (changePackage position change) :=
  upholds_changePackage fun _ p a q hc' hp hq => hc'.trans ⟨.refl, .set hp (.single (h p a q hq))⟩

theorem develops_changePending (slot : Nat) (f : CloneMap → CloneMap) :
    Upholds c.Develops (changePending slot f) :=
  fun _ h => ⟨h.symbols, h.packages⟩

/-! ## Operations of a synthesis -/

theorem steady_cloner? (wanted : Bool) (ctx : Context) :
    ∀ clone ∈ cloner? wanted ctx, ∀ stamp ty, Synth.Steady true (clone stamp ty) := by
  intro clone hclone
  obtain rfl := eq_of_mem_cloner? hclone
  exact Synth.steady_readonlyVariant ctx

theorem develops_attachInitializer (env : Environment) (position : Nat) :
    Upholds c.Develops (attachInitializer env position) :=
  upholds_attachInitializer (fun _ nodes h => h.nodes nodes) fun node =>
    develops_synthesize fun _ => (Synth.steady_attachInitializer node).writing

theorem develops_registerAnonymousRecord (env : Environment) (ty : TypeId) (span : Span) :
    Upholds c.Develops (registerAnonymousRecord env ty span) :=
  develops_synthesize fun _ => (Synth.steady_registerAnonymousRecord ty span).writing

theorem develops_buildField (env : Environment) (memo : Option Nat) (pending : Nat)
    (plan : FieldPlan) (template : Field) :
    Upholds c.Develops (buildField env memo pending plan template) :=
  develops_synthesize fun ctx =>
    (Synth.steady_buildField (steady_cloner? _ ctx) plan template).writing

theorem develops_buildFields (env : Environment) (memo : Option Nat) (pending : Nat)
    (p : Population) (position : Nat) :
    Upholds c.Develops (buildFields env memo pending p position) :=
  upholds_buildFields (fun _ nodes h => h.nodes nodes) fun node => develops_synthesize fun ctx =>
    (Synth.steady_buildFields (steady_cloner? _ ctx) p node).writing

theorem develops_readonlyVariant (env : Environment) (slots : CloneSlots) (stamp : Stamp)
    (ty : TypeId) : Upholds c.Develops (readonlyVariant env slots stamp ty) :=
  develops_synthesize fun ctx => (Synth.steady_readonlyVariant ctx stamp ty).writing

end Compilation

open Compilation

/-! ## Commands -/

variable {c : Compilation}

theorem Registration.develops (r : Registration) : Upholds c.Develops r.action := by
  cases r with
  | typeDefinition position d =>
    exact develops_changePackage fun p n q hq => .of_registerType hq
  | classDefinition position d =>
    exact develops_changePackage fun p n q hq => .of_registerClass hq
  | definition env ty s position =>
    exact (upholds_reading _).bind fun tree =>
      develops_synthesize fun _ => Synth.writing_registerDefinition ty s tree
  | synthesized env ty template position =>
    exact (upholds_reading _).bind fun tree =>
      develops_synthesize fun _ =>
        (Synth.steady_registerSynthesizedDefinition ty template tree).writing
  | classOf env s span =>
    exact develops_synthesize fun _ => Synth.writing_registerClassOf span s
  | anonymousRecord env ty span =>
    exact develops_registerAnonymousRecord env ty span

/-- **A command writes in order**, unless it overwrites a symbol. -/
theorem Command.develops {command : Command} (h : command.overwritesSymbol = false) :
    Upholds c.Develops command.action := by
  cases command with
  | query q => exact q.upholds
  | register r => exact r.develops.discarded
  | setSymbol => cases h
  | addSymbol kind d =>
    exact (develops_onTables (Synth.steady_addSymbol kind d).writing).discarded
  | openScope owner => exact (develops_onTables (Synth.steady_openScope owner).writing).discarded
  | defineAt scope name s => exact develops_onTables (Synth.steady_defineAt scope name s).writing
  | define owner name s => exact develops_onTables (Synth.steady_define owner name s).writing
  | addType entry => exact (develops_onTables (Synth.steady_addType entry).writing).discarded
  | setType ty entry => exact develops_onTables (Synth.steady_changeType ty _).writing
  | addField ty key field =>
    exact (upholds_addField fun f => develops_onTables
      (Synth.steady_changeType ty f).writing).discarded
  | nextName family package =>
    exact (develops_onTables (Synth.steady_nextName family package).writing).discarded
  | addNode node => exact (upholds_addNode (fun _ nodes h => h.nodes nodes) node).discarded
  | setNode position node => exact upholds_setNode (fun _ nodes h => h.nodes nodes) position node
  | bindDetail position ty name =>
    exact (upholds_bindDetail (fun _ nodes h => h.nodes nodes) position ty name).discarded
  | addPackage id name => exact (develops_addPackage id name).discarded
  | addImport position i =>
    refine develops_changePackage fun p a q hq => ?_
    obtain ⟨-, rfl⟩ := Prod.mk.inj (Except.ok.inj hq)
    exact .addImport i
  | begin slot ty clone => exact develops_changePending slot (·.insert ty clone)
  | finish slot ty => exact develops_changePending slot (·.erase ty)
  | configure settings => exact fun _ h => ⟨h.symbols, h.packages⟩
  | createInitializer env plan =>
    exact (develops_synthesize fun _ => (Synth.steady_createInitializer plan).writing).discarded
  | attachInitializer env position => exact (develops_attachInitializer env position).discarded
  | transientDefinition ty s position =>
    exact ((upholds_reading _).bind fun tree =>
      develops_onTables (Synth.steady_draftDefinition ty s tree).writing).discarded
  | fieldDeclarations ty package =>
    exact (develops_onTables (Synth.steady_fieldDeclarations ty package).writing).discarded
  | recordNode ty package span =>
    exact ((develops_onTables (Synth.steady_recordNode ty package span).writing).bind
      fun _ => upholds_addNode (fun _ nodes h => h.nodes nodes) _).discarded
  | objectNode ty span =>
    exact ((develops_onTables (Synth.steady_objectNode ty span).writing).bind
      fun _ => upholds_addNode (fun _ nodes h => h.nodes nodes) _).discarded
  | errorNode env ty span =>
    exact ((develops_synthesize fun _ => (Synth.steady_errorNode ty span).writing).bind
      fun _ => upholds_addNode (fun _ nodes h => h.nodes nodes) _).discarded
  | buildField env memo pending plan template =>
    exact (develops_buildField env memo pending plan template).discarded
  | buildFields env memo pending p position =>
    exact develops_buildFields env memo pending p position
  | readonlyVariant env slots stamp ty =>
    exact (develops_readonlyVariant env slots stamp ty).discarded

/-- Every command writes to the packages in order. -/
theorem Command.develops_packages (command : Command) (c : Compilation) :
    PackagesDevelop c.packages (c.after command.action).packages := by
  cases h : command.overwritesSymbol with
  | false => exact ((Command.develops h).after (.refl c)).packages
  | true =>
    cases command with
    | setSymbol s symbol =>
      -- overwriting a symbol is done without a package
      have hends : Ends (setSymbol s symbol).action c
          (fun _ c' => PackagesDevelop c.packages c'.packages)
          fun _ c' => PackagesDevelop c.packages c'.packages :=
        ends_onTables.2 (ends_iff.2 ⟨fun _ _ _ => .refl _, fun _ _ _ => .refl _⟩)
      exact Ends.after hends
    | _ => cases h

namespace Compilation

variable {c : Compilation} {commands pre post : List Command}

/-! ## Runs -/

/-- **A run writes in order**, unless some command overwrites a symbol. -/
theorem develops_execute (h : ∀ command ∈ commands, command.overwritesSymbol = false) :
    c.Develops (c.execute commands) := by
  induction commands generalizing c with
  | nil => exact .refl c
  | cons command commands ih =>
    obtain ⟨hfirst, hrest⟩ := List.forall_mem_cons.1 h
    exact ((Command.develops hfirst).after (.refl c)).trans (ih hrest)

theorem develops_between (h : ∀ command ∈ post, command.overwritesSymbol = false)
    (hpre : pre <+: post) : (c.execute pre).Develops (c.execute post) := by
  obtain ⟨rest, rfl⟩ := hpre
  rw [execute_append]
  exact develops_execute fun command hmem => h command (List.mem_append_right _ hmem)

/-- A run writes to the packages in order. -/
theorem develops_packages_execute (c : Compilation) (commands : List Command) :
    PackagesDevelop c.packages (c.execute commands).packages := by
  induction commands generalizing c with
  | nil => exact .refl _
  | cons command commands ih => exact (command.develops_packages c).trans (ih _)

theorem develops_packages_between (c : Compilation) (hpre : pre <+: post) :
    PackagesDevelop (c.execute pre).packages (c.execute post).packages := by
  obtain ⟨rest, rfl⟩ := hpre
  rw [execute_append]
  exact develops_packages_execute _ _

end Compilation

end StructuralTypes
