import StructuralTypes.Proofs.Composition

/-!
# Synthesis writes in order

Every operation of a synthesis is steady, except that one may ask for a registration under a symbol
of one's own choice. Three operations register under a symbol that they have made themselves; that
symbol is fresh when it is made, and whatever they do before they register it is steady, so it is
still fresh then. A search for a readonly variant does so at every clone, with the searches for the
parts in between, which register newer symbols only.

Results:
* `composes_steady`: two operations in a row.
* `steady_buildFields`, `steady_fieldDeclarations`: fields are built and declared.
* **`steady_registerSynthesizedDefinition`**, **`steady_registerAnonymousRecord`**,
  **`steady_readonlyVariant`**: registrations under new symbols.
* `ends_registerDefinition`: a registration under any symbol.
-/

namespace StructuralTypes

namespace Synth

variable {registers : Bool} {s u : Session} {y : SymbolId} {ctx : Context}

/-- **Two steady operations in a row are steady.** -/
theorem composes_steady (registers : Bool) : Composes (Steady registers) where
  inspects hx := hx.steady
  bind hx hf := hx.bind hf

/-! ## Fields -/

section Fields

variable {cloner : Option Cloner}
  (hcloner : ∀ clone ∈ cloner, ∀ stamp ty, Steady registers (clone stamp ty))
include hcloner

theorem steady_buildField (plan : FieldPlan) (template : Field) :
    Steady registers (buildField ctx cloner plan template) :=
  (composes_steady registers).buildField hcloner steady_addSymbol steady_define plan template

/-- **The fields of a structure are built anew.** -/
theorem steady_buildFields (p : Population) (node : StructureNode) :
    Steady registers (buildFields ctx cloner p node) := by
  unfold buildFields setFields
  refine (inspects_kindOf _).steady.bind fun sourceKind => ?_
  refine (inspects_kindOf _).steady.bind fun kind => ?_
  refine (inspects_symbolOf _).steady.bind fun holder => ?_
  refine (inspects_fieldsOf _).steady.bind fun templates => ?_
  refine (steady_mapM fun f => steady_buildField hcloner _ f).bind fun built => ?_
  refine (steady_changeType _ _).bind fun _ => ?_
  split
  · exact (inspects_sourceReference _ _).steady.bind fun _ => steady_pure _
  · exact steady_pure _

end Fields

/-! ## Declarations and nodes -/

/-- **The fields of a structure are declared.** -/
theorem steady_fieldDeclarations (ty : TypeId) (package : PackageId) :
    Steady registers (fieldDeclarations ty package) :=
  (composes_steady registers).fieldDeclarations (fun d _ => steady_addSymbol .variable d) ty package

theorem steady_recordNode (ty : TypeId) (package : PackageId) (span : Span) :
    Steady registers (recordNode ty package span) :=
  (composes_steady registers).recordNode steady_fieldDeclarations ty package span

theorem steady_objectNode (ty : TypeId) (span : Span) : Steady registers (objectNode ty span) :=
  (composes_steady registers).objectNode steady_fieldDeclarations ty span

theorem steady_errorNode (ty : TypeId) (span : Span) : Steady registers (errorNode ty span) :=
  (composes_steady registers).errorNode steady_nextName ty span

/-! ## Initializers -/

theorem steady_createInitializer (plan : InitializerPlan) :
    Steady registers (createInitializer ctx plan) := by
  unfold createInitializer
  refine inspects_packageId.steady.bind fun package => ?_
  refine (inspects_nameOf plan.ty).steady.bind fun name => ?_
  refine (steady_addSymbol _ _).bind fun receiver => (steady_addType _).bind fun type => ?_
  refine (steady_addSymbol _ _).bind fun function => (steady_openScope function).bind fun _ => ?_
  refine (steady_define _ _ _).bind fun _ => ?_
  refine (steady_changeSymbol function fun named => ?_).bind fun _ => ?_
  · exact ⟨named.mapFunction_id _, named.mapFunction_scope _⟩
  refine Steady.bind (steady_changeSymbol receiver ?_) fun _ => ?_
  · exact fun named => ⟨rfl, rfl⟩
  exact (steady_addSymbol _ _).bind fun _ => (steady_changeType _ _).bind fun _ => steady_pure _

theorem steady_attachInitializer (node : StructureNode) :
    Steady registers (attachInitializer ctx node) :=
  (composes_steady registers).attachInitializer steady_createInitializer steady_define
    steady_changeTypeLinks node

/-! ## Definitions -/

theorem steady_draftDefinition (ty : TypeId) (y : SymbolId) (node : TypeNode) :
    Steady registers (draftDefinition ty y node) :=
  (composes_steady registers).draftDefinition ty y node

/-- A definition is drafted under the symbol that was asked for, which has to be there. -/
theorem ends_draftDefinition (ty : TypeId) (y : SymbolId) (node : TypeNode) :
    Ends (draftDefinition ty y node) s
      (fun d t => t = s ∧ d.symbol = y ∧ d.ty = some ty ∧ d.node = node ∧
        y.index < s.symbols.symbols.size)
      fun e t => t = s ∧ e = .dangling ∧ s.symbols.symbols.size ≤ y.index := by
  unfold draftDefinition
  refine ends_bind.2 (ends_symbol.2 ⟨fun named hnamed => ends_pure.2 ?_, fun h => ⟨rfl, rfl, h⟩⟩)
  exact ⟨rfl, rfl, rfl, rfl, SymbolTable.lt_of_find hnamed⟩

/-- **A definition is registered under any symbol** that has none yet. -/
theorem ends_registerDefinition (ty : TypeId) (node : TypeNode) :
    Ends (registerDefinition ty y node) s
      (fun n t => s.Writes true 0 t ∧ s.EntersNode y ty node n t)
      fun _ t => t = s ∧ (y.index < s.symbols.symbols.size → y ∈ s.registered) := by
  unfold registerDefinition
  refine ends_bind.2 ((ends_draftDefinition ty y node).imp ?_ ?_)
  · rintro d _ ⟨rfl, rfl, hty, hnode, hthere⟩
    refine ends_registerType.2 ⟨fun n package hn => ?_, fun _ he => ⟨rfl, fun _ => ?_⟩⟩
    · obtain ⟨hfree, hnumber, rfl⟩ := Package.registerType_eq_ok_iff_enter.1 hn
      exact ⟨.single (.register (.ofType d) hfree rfl fun _ => ⟨Nat.zero_le _, hthere⟩), d, rfl,
        hty, hnode, hfree, hnumber, rfl⟩
    · rw [Session.registered, Package.symbols_types]
      exact (Package.registerType_eq_error_iff.1 he).1
  · rintro _ _ ⟨rfl, -, hbeyond⟩
    exact ⟨rfl, fun hthere => absurd hthere (Nat.not_lt_of_le hbeyond)⟩

/-- **The class of a symbol is registered.** -/
theorem ends_registerClassOf (span : Span) :
    Ends (registerClassOf span y) s
      (fun n t => s.Writes true 0 t ∧ ∃ d : ClassDefinition, d.symbol = y ∧ d.span = span ∧
        s.Enters (.ofClass d) n t)
      fun _ t => s.Advances false t := by
  unfold registerClassOf
  refine (inspects_typeOf y).steady.bind_advances (.refl s) fun ty t ht => ?_
  refine (inspects_requireObject ty).steady.bind_advances ht fun _ t ht => ?_
  refine (inspects_symbol y).steady.bind_advances ht fun named t ht => ?_
  refine (steady_fieldDeclarations ty named.package).bind_advances ht fun fields t ht => ?_
  refine ends_registerClass.2 ⟨fun n package hn => ?_, fun _ _ => ht⟩
  obtain ⟨hfree, hnumber, rfl⟩ := Package.registerClass_eq_ok_iff_enter.1 hn
  refine ⟨(Session.Writes.mono ht (Nat.zero_le _)).weaken.tail (.register _ hfree rfl nofun), _,
    rfl, rfl, Session.Enters.of_advances ⟨hfree, hnumber, rfl⟩ ht⟩

/-- **The definition under a fresh symbol is registered.** -/
theorem ends_registerDefinition_of_fresh (ty : TypeId) (node : TypeNode)
    (h : s.Fresh registers u y) :
    Ends (registerDefinition ty y node) u
      (fun n t => s.Advances true t ∧ u.EntersNode y ty node n t)
      (StopsFair registers s) := by
  unfold registerDefinition
  refine ends_bind.2 ((ends_draftDefinition ty y node).imp ?_ ?_)
  · rintro d _ ⟨rfl, rfl, hty, hnode, -⟩
    refine (ends_registerType_of_fresh h).imp ?_ fun _ _ he => he
    exact fun n t ⟨hall, henters⟩ => ⟨hall, d, rfl, hty, hnode, henters⟩
  · rintro e _ ⟨rfl, rfl, -⟩
    exact ⟨h.advances, fun _ => rfl⟩

/-- **A type definition is registered under a new symbol**, and nothing else is. -/
theorem ends_registerSynthesizedDefinition (ty : TypeId) (template : SymbolId) (node : TypeNode) :
    Ends (registerSynthesizedDefinition ty template node) s
      (fun n t => s.Advances true t ∧ s.EntersNode ⟨s.symbols.symbols.size⟩ ty node n t)
      (StopsFair false s) := by
  unfold registerSynthesizedDefinition
  refine (inspects_symbol template).bind_ends fun named => ?_
  have hself : s.Advances false s := .refl s
  refine ends_bind.2 ((ends_addSymbol_fresh hself _ _).imp ?_ fun _ _ he => he)
  rintro y t ⟨rfl, hfresh⟩
  have hregister : ∀ (_ : Unit) u, s.Fresh false u ⟨s.symbols.symbols.size⟩ →
      Ends (registerDefinition ty ⟨s.symbols.symbols.size⟩ node) u
        (fun n t => s.Advances true t ∧ s.EntersNode ⟨s.symbols.symbols.size⟩ ty node n t)
        (StopsFair false s) := fun _ u hu =>
    (ends_registerDefinition_of_fresh ty node hu).imp
      (fun n v ⟨hall, henters⟩ => ⟨hall, henters.of_advances hu.advances⟩) fun _ _ he => he
  refine (steady_openScope _).bind_fresh hfresh fun _ t hfresh => ?_
  refine (inspects_entry ty).steady.bind_fresh hfresh fun e t hfresh => ?_
  split
  · refine Steady.bind_fresh (steady_changeSymbol _ fun named => ?_) hfresh hregister
    exact ⟨named.mapTypeLinks_id _, named.mapTypeLinks_scope _⟩
  · exact (steady_pure ()).bind_fresh hfresh hregister

theorem steady_registerSynthesizedDefinition (ty : TypeId) (template : SymbolId)
    (node : TypeNode) : Steady true (registerSynthesizedDefinition ty template node) :=
  fun _ => (ends_registerSynthesizedDefinition ty template node).imp (fun _ _ h => h.1)
    fun _ _ he => he.weaken

/-- The definition symbol of an anonymous record is new. -/
theorem ends_anonymousDefinitionSymbol (ty : TypeId) (record : Symbol) (package : PackageId)
    (span : Span) :
    Ends (anonymousDefinitionSymbol ctx ty record package span) s
      (fun y t => y = ⟨s.symbols.symbols.size⟩ ∧ s.Fresh false t y) (StopsFair false s) := by
  unfold anonymousDefinitionSymbol
  have hself : s.Advances false s := .refl s
  refine ends_bind.2 ((ends_addSymbol_fresh hself _ _).imp ?_ fun _ _ he => he)
  rintro y t ⟨rfl, hfresh⟩
  refine (steady_openScope _).bind_fresh hfresh fun _ t hfresh => ?_
  exact (steady_define _ _ _).bind_fresh hfresh fun _ t hfresh => ends_pure.2 ⟨rfl, hfresh⟩

/-- **An anonymous record is registered under a new symbol**, and nothing else is. -/
theorem ends_registerAnonymousRecord (ty : TypeId) (span : Span) :
    Ends (registerAnonymousRecord ctx ty span) s
      (fun n t => s.Advances true t ∧ ∃ d : TypeDefinition, d.symbol = ⟨s.symbols.symbols.size⟩ ∧
        d.ty = some ty ∧ d.span = span ∧ s.Enters (.ofType d) n t)
      (StopsFair false s) := by
  unfold registerAnonymousRecord
  refine (inspects_requireRecord ty).bind_ends fun _ => ?_
  refine (inspects_symbolOf ty).bind_ends fun recordSymbol => ?_
  refine (inspects_symbol recordSymbol).bind_ends fun record => ?_
  refine (inspects_symbol ctx.scopeOwner).bind_ends fun owner => ?_
  refine ends_bind.2 ((ends_anonymousDefinitionSymbol ty record owner.package span).imp ?_
    fun _ _ he => he)
  rintro y t ⟨rfl, hfresh⟩
  refine (steady_openScope recordSymbol).bind_fresh hfresh fun _ t hfresh => ?_
  refine Steady.bind_fresh (steady_changeSymbol _ fun _ => ⟨rfl, rfl⟩) hfresh fun _ t hfresh => ?_
  refine (steady_changeTypeLinks _ _ _).bind_fresh hfresh fun _ t hfresh => ?_
  refine (steady_buildFields (by simp) _ _).bind_fresh hfresh fun node t hfresh => ?_
  refine (steady_fieldDeclarations ty _).bind_fresh hfresh fun fields t hfresh => ?_
  refine (steady_changeType ty _).bind_fresh hfresh fun _ t hfresh => ?_
  refine (ends_registerType_of_fresh hfresh).imp ?_ fun _ _ he => he
  exact fun n u ⟨hall, henters⟩ => ⟨hall, _, rfl, rfl, rfl, henters.of_advances hfresh.advances⟩

theorem steady_registerAnonymousRecord (ty : TypeId) (span : Span) :
    Steady true (registerAnonymousRecord ctx ty span) :=
  fun _ => (ends_registerAnonymousRecord ty span).imp (fun _ _ h => h.1) fun _ _ he => he.weaken

/-! ## Readonly variants -/

section Clones

variable {clone : Cloner}

/-- The symbol of a new clone is fresh. -/
theorem ends_openClone (stamp : Stamp) (source : TypeId) (named : Symbol) (b : Blueprint) :
    Ends (openClone stamp source named b) s (fun p t => s.Fresh true t p.2)
      (StopsFair true s) := by
  have h := composes_steady true
  unfold openClone
  refine ends_bind.2 ((h.cloneName steady_nextName stamp named s).imp (fun name t ht => ?_)
    fun _ _ he => he)
  refine ends_bind.2 ((h.addReadonly steady_addType source b.shell t).imp (fun made u hu => ?_)
    fun _ _ he => he.of_advances ht)
  refine ends_bind.2 ((ends_addSymbol_fresh (ht.trans hu) _ _).imp ?_ fun _ _ he => he)
  rintro y v ⟨-, hfresh⟩
  refine (steady_openScope y).bind_fresh hfresh fun _ v hfresh => ?_
  exact (steady_changeType made _).bind_fresh hfresh fun _ v hfresh => ends_pure.2 hfresh

variable (hclone : ∀ stamp ty, Steady true (clone stamp ty))
include hclone

theorem steady_fillClone (stamp : Stamp) (source : TypeId) (b : Blueprint) (ty : TypeId)
    (y : SymbolId) : Steady true (fillClone ctx clone stamp source b ty y) := by
  rw [fillClone_eq]
  exact (steady_buildFields (by simpa using hclone) _ _).bind
    ((composes_steady true).finishClone (hclone stamp) (fun _ => steady_changeType ty _)
      (steady_fieldDeclarations ty _) b)

/-- **The symbol of a clone is still fresh when its definition is registered**: the clones in its
parts have newer ones. -/
theorem steady_makeClone (stamp : Stamp) (source : TypeId) (b : Blueprint) :
    Steady true (makeClone ctx clone stamp source b) := by
  unfold makeClone
  refine (inspects_symbolOf source).steady.bind fun z => ?_
  refine (inspects_symbol z).steady.bind fun named => ?_
  intro s
  refine ends_bind.2 ((ends_openClone stamp source named b).imp ?_ fun _ _ he => he)
  rintro ⟨made, y⟩ t hfresh
  refine (steady_fillClone hclone stamp source b made y).whilePending.bind_fresh hfresh
    fun node t hfresh => ?_
  refine (steady_attachInitializer _).bind_fresh hfresh fun ⟨_, node⟩ t hfresh => ?_
  refine ends_bind.2 ((ends_registerDefinition_of_fresh made _ hfresh).imp ?_ fun _ _ he => he)
  exact fun n u hu => ends_pure.2 hu.1

omit hclone in
/-- The search is steady at every depth. -/
theorem steady_readonlyWithin (ctx : Context) (fuel : Nat) (stamp : Stamp) (ty : TypeId) :
    Steady true (readonlyWithin ctx fuel stamp ty) := by
  induction fuel generalizing stamp ty with
  | zero => exact steady_stop rfl
  | succ fuel ih =>
    exact (composes_steady true).cloneStep (steady_makeClone ih stamp) (ih stamp) steady_addType
      steady_remember ty

omit hclone in
/-- **The search for a readonly variant registers clones under new symbols**, and never fails over
duplicates. -/
theorem steady_readonlyVariant (ctx : Context) (stamp : Stamp) (ty : TypeId) :
    Steady true (readonlyVariant ctx stamp ty) := by
  intro s
  have hs := steady_readonlyWithin ctx (cloneDepth s.types.entries.size) stamp ty s
  rw [ends_iff] at hs ⊢
  exact hs

end Clones

end Synth

end StructuralTypes
