import StructuralTypes.Proofs.Attachment.Session
import StructuralTypes.Proofs.Lookup.Table
import StructuralTypes.Proofs.Readonly.Opening
import StructuralTypes.Proofs.Writing.Synthesis

/-!
# Owners in a session

A synthesis adds symbols in the scope that it happens in, in the structures that it works on, and in
symbols that it has just added. So owners go on to end if they have ended so far and the first two
sorts of owner are there. `Anchors n x` says this of the operation `x`, where the first `n` symbols
may be used as owners: whatever it adds later does not take them away.

The initializer is the one place where a symbol is given an owner after it was added, and a newer
one than itself: the receiver belongs to its function. The function belongs to the structure, and
nothing belonged to the receiver by then.

Results:
* `Anchors.ends`: all symbols that are there may be used as owners.
* **`anchors_createInitializer`**: the receiver and its function.
* `ends_buildFields_anchored`, `ends_attachInitializer_anchored`: the symbol of the structure has to
  be there.
* **`anchors_readonlyWithin`**, **`anchors_registerAnonymousRecord`**: searches and registrations.
-/

namespace StructuralTypes

/-- The symbol that names a type, if one does. -/
def TypeTable.namer? (T : TypeTable) (ty : TypeId) : Option SymbolId :=
  T.entries[ty.index]?.bind (·.symbol)

theorem TypeTable.namer?_of_find {T : TypeTable} {ty : TypeId} {e : TypeEntry}
    (h : T.find ty = .ok e) : T.namer? ty = e.symbol := by
  rw [namer?, find_eq_ok_iff.1 h, Option.bind_some]

/-- The symbol of the structure that a node describes: the node's own, or else that of its type. -/
def StructureNode.holder? (node : StructureNode) (T : TypeTable) : Option SymbolId :=
  node.symbol <|> node.ty.bind T.namer?

theorem StructureNode.holder?_of_symbol {node : StructureNode} {y : SymbolId}
    (h : node.symbol = some y) (T : TypeTable) : node.holder? T = some y := by
  rw [holder?, h]
  rfl

/-! ## Tables -/

namespace SymbolTable

variable {t u : SymbolTable} {n : Nat} {x y : SymbolId} {id : ScopeId} {name : String}

/-- Owners end, and the first `n` symbols are there. -/
structure Anchored (n : Nat) (t : SymbolTable) : Prop where
  /-- Owners end. -/
  wellOwned : t.WellOwned
  /-- There are at least `n` symbols. -/
  size_le : n ≤ t.symbols.size

theorem WellOwned.anchored (h : t.WellOwned) : t.Anchored t.symbols.size := ⟨h, Nat.le_refl _⟩

namespace Anchored

theorem add (h : t.Anchored n) (kind : SymbolKind) {d : Declaration}
    (howner : ∀ y ∈ d.owner, y.index < n) : (t.add kind d).2.Anchored n where
  wellOwned := h.wellOwned.add kind fun y hy => Nat.lt_of_lt_of_le (howner y hy) h.size_le
  size_le := Nat.le_trans h.size_le (grows_add t kind d).size_le

theorem openScope (h : t.Anchored n) (hopen : t.openScope x = .ok (id, u)) : u.Anchored n where
  wellOwned := h.wellOwned.openScope hopen
  size_le := Nat.le_trans h.size_le (Write.openScope hopen).size_le

theorem define (h : t.Anchored n) (hdefine : t.define id name x = .ok u) : u.Anchored n where
  wellOwned := h.wellOwned.define hdefine
  size_le := Nat.le_trans h.size_le (Write.define hdefine).size_le

/-- A symbol is changed, but not in its owner. -/
theorem change (h : t.Anchored n) {f : Symbol → Symbol} (hchange : t.change x f = .ok u)
    (hf : ∀ named, (f named).owner = named.owner) : u.Anchored n := by
  obtain ⟨named, hx, rfl⟩ := change_eq_ok hchange
  have hk := OwnersKept.set hx (hf named) t.scopes
  exact ⟨h.wellOwned.kept hk Array.size_setIfInBounds, by simpa using h.size_le⟩

end Anchored

end SymbolTable

namespace Synth

open SymbolTable (Anchored)

variable {α β : Type} {n : Nat} {x : Synth α} {s : Session} {ctx : Context}

/-- The operation leaves owners behind that end, if they have ended and there were `n` symbols. -/
abbrev Anchors (n : Nat) (x : Synth α) : Prop := Upholds (Anchored n ·.symbols) x

theorem composes_anchors (n : Nat) : Composes (Anchors n) := composes_upholds (Anchored n)

/-- **All symbols that are there may be used as owners.** -/
theorem ends_of_anchored_size (hs : s.symbols.Anchored n)
    (h : Ends x s (fun _ t => t.symbols.Anchored s.symbols.symbols.size)
      fun _ t => t.symbols.Anchored s.symbols.symbols.size) :
    Ends x s (fun _ t => t.symbols.Anchored n) fun _ t => t.symbols.Anchored n :=
  h.imp (fun _ _ ht => ⟨ht.wellOwned, Nat.le_trans hs.size_le ht.size_le⟩)
    fun _ _ ht => ⟨ht.wellOwned, Nat.le_trans hs.size_le ht.size_le⟩

theorem Anchors.ends (h : Anchors s.symbols.symbols.size x) (hs : s.symbols.Anchored n) :
    Ends x s (fun _ t => t.symbols.Anchored n) fun _ t => t.symbols.Anchored n :=
  ends_of_anchored_size hs (h s hs.wellOwned.anchored)

/-! ## Steps -/

theorem anchors_addSymbol (kind : SymbolKind) {d : Declaration}
    (howner : ∀ y ∈ d.owner, y.index < n) : Anchors n (addSymbol kind d) :=
  fun _ hs => ends_addSymbol.2 (hs.add kind howner)

theorem anchors_openScope (y : SymbolId) : Anchors n (openScope y) :=
  fun _ hs => ends_openScope.2 ⟨fun _ _ h => hs.openScope h, fun _ _ => hs⟩

theorem anchors_defineAt (id : ScopeId) (name : String) (y : SymbolId) :
    Anchors n (defineAt id name y) :=
  fun _ hs => ends_onSymbols.2 ⟨fun _ h => hs.define h, fun _ _ => hs⟩

theorem anchors_define (owner : SymbolId) (name : String) (y : SymbolId) :
    Anchors n (define owner name y) := by
  refine fun _ hs => ends_onSymbols.2 ⟨fun _ h => ?_, fun _ _ => hs⟩
  obtain ⟨id, -, hdefine⟩ := SymbolTable.defineIn_eq_ok h
  exact hs.define hdefine

theorem anchors_changeSymbol (y : SymbolId) {f : Symbol → Symbol}
    (hf : ∀ named, (f named).owner = named.owner) : Anchors n (changeSymbol y f) :=
  fun _ hs => ends_onSymbols.2 ⟨fun _ h => hs.change h hf, fun _ _ => hs⟩

/-- Links are changed in the symbol table only. -/
theorem ends_changeTypeLinks_anchored (hs : s.symbols.Anchored n) (y : SymbolId) (role : SymbolRole)
    (f : TypeLinks → TypeLinks) :
    Ends (changeTypeLinks y role f) s (fun _ t => t.symbols.Anchored n ∧ t.types = s.types)
      fun _ t => t.symbols.Anchored n := by
  unfold changeTypeLinks
  refine ends_bind.2 (ends_symbol.2 ⟨fun named _ => ?_, fun _ => hs⟩)
  split
  · refine ends_onSymbols.2 ⟨fun _ h => ⟨hs.change h ?_, rfl⟩, fun _ _ => hs⟩
    exact fun found => found.mapTypeLinks_owner f
  · exact hs

theorem anchors_changeTypeLinks (y : SymbolId) (role : SymbolRole) (f : TypeLinks → TypeLinks) :
    Anchors n (changeTypeLinks y role f) := fun _ hs =>
  (ends_changeTypeLinks_anchored hs y role f).imp (fun _ _ ht => ht.1) fun _ _ ht => ht

/-- The symbol that names a type is read. -/
theorem ends_symbolOf_namer (ty : TypeId) :
    Ends (symbolOf ty) s (fun y t => t = s ∧ s.types.namer? ty = some y) fun _ t => t = s := by
  unfold symbolOf
  refine ends_bind.2 (ends_reading.2 ⟨fun e he => ?_, fun _ _ => rfl⟩)
  cases hy : e.symbol with
  | none => exact rfl
  | some y => exact ends_pure.2 ⟨rfl, (TypeTable.namer?_of_find he).trans hy⟩

/-! ## Initializers -/

/-- Owners end at the receiver, the function and the symbol of the function type, too. -/
theorem anchored_initializerSession (hs : s.symbols.Anchored n) {plan : InitializerPlan}
    (howner : plan.owner.index < n) (name : String) :
    (initializerSession s ctx plan name).symbols.Anchored n := by
  have hgrows := (grows_initializerSession s ctx plan name).1
  have hold : ∀ x : SymbolId, x.index < s.symbols.symbols.size →
      (initializerSession s ctx plan name).symbols.Grounded x :=
    fun x hx => (hs.wellOwned x hx).kept (.of_grows hgrows)
  -- the function belongs to the structure, and the other two to the function
  have hfunction := SymbolTable.Grounded.inner ⟨_, find_initializerSymbol s ctx plan name, rfl⟩
    (hold plan.owner (Nat.lt_of_lt_of_le howner hs.size_le))
  have hreceiver := hfunction.inner ⟨_, find_receiverSymbol s ctx plan name, rfl⟩
  have htype := hfunction.inner ⟨_, find_initializerTypeSymbol s ctx plan name, rfl⟩
  refine ⟨fun ⟨i⟩ hi => ?_, Nat.le_trans hs.size_le hgrows.size_le⟩
  simp only [initializerSession, Array.size_push] at hi
  obtain hlt | rfl | rfl | rfl : i < s.symbols.symbols.size ∨ i = s.symbols.symbols.size ∨
      i = s.symbols.symbols.size + 1 ∨ i = s.symbols.symbols.size + 2 := by
    omega
  · exact hold ⟨i⟩ hlt
  · exact hreceiver
  · exact hfunction
  · exact htype

/-- **An initializer is made**, for an owner that is there. -/
theorem anchors_createInitializer {plan : InitializerPlan} (howner : plan.owner.index < n) :
    Anchors n (createInitializer ctx plan) := by
  intro s hs
  cases hname : nameOf plan.ty s with
  | error e t => exact (ends_of_error (createInitializer_eq_error ctx hname)).2 hs
  | ok name t =>
    obtain rfl := (ends_nameOf plan.ty).of_ok hname
    exact (ends_of_ok (createInitializer_eq ctx hname)).2
      (anchored_initializerSession hs howner name)

/-- **A structure gets its initializer**, if its symbol is there. -/
theorem ends_attachInitializer_anchored (hs : s.symbols.Anchored n) (ctx : Context)
    (node : StructureNode) (hholder : ∀ y ∈ node.holder? s.types, y.index < n) :
    Ends (attachInitializer ctx node) s (fun _ t => t.symbols.Anchored n)
      fun _ t => t.symbols.Anchored n := by
  unfold attachInitializer
  cases hty : node.ty with
  | none => exact hs
  | some ty =>
  have howner : Ends (node.symbol.elim (symbolOf ty) pure) s
      (fun y t => t = s ∧ y.index < n) fun _ t => t.symbols.Anchored n := by
    unfold StructureNode.holder? at hholder
    cases hsymbol : node.symbol with
    | none =>
      refine (ends_symbolOf_namer ty).imp ?_ fun _ _ ht => ht ▸ hs
      rintro y _ ⟨rfl, hy⟩
      exact ⟨rfl, hholder y (by simp [hsymbol, hty, hy])⟩
    | some y => exact ends_pure.2 ⟨rfl, hholder y (by simp [hsymbol])⟩
  refine ends_bind.2 (howner.imp ?_ fun _ _ he => he)
  rintro owner _ ⟨rfl, hlt⟩
  refine Upholds.bind (anchors_createInitializer hlt) (fun f => ?_) _ hs
  refine Upholds.bind (anchors_define owner f.name.name f.symbol) fun _ => ?_
  exact Upholds.bind (anchors_changeTypeLinks owner _ _) fun _ => upholds_pure _

/-! ## Fields -/

section Fields

variable {cloner : Option Cloner}
  (hcloner : ∀ cl ∈ cloner, ∀ stamp ty, stamp.owner = ctx.scopeOwner → Anchors n (cl stamp ty))
include hcloner

theorem anchors_buildField {plan : FieldPlan} (hholder : plan.holder.index < n)
    (template : Field) : Anchors n (buildField ctx cloner plan template) := by
  unfold buildField
  refine Upholds.bind ((composes_anchors n).fieldType hcloner template.ty) fun ty => ?_
  refine (inspects_fieldDeclaration plan template ty).upholds.bind_of fun s d _ _ hd => ?_
  refine (upholds_reading _).bind fun base => (upholds_reading _).bind fun e => ?_
  refine (inspects_specializeField _ d e).upholds.bind_of ?_
  rintro s ⟨kind, d'⟩ _ _ hd'
  -- a field is declared in the structure that it is built for, whatever its type stands for
  obtain ⟨-, o, -, rfl⟩ := fieldDeclaration_eq_ok_iff.1 hd
  obtain ⟨-, shapes⟩ := specializeField_eq_ok_iff.1 hd'
  have howner : d'.owner = some plan.holder :=
    (congrArg Declaration.owner shapes.declaration_eq).trans (plan.inherit_owner template ty o)
  refine Upholds.bind (anchors_addSymbol kind ?_) fun y => ?_
  · rw [howner]
    rintro _ ⟨⟩
    exact hholder
  refine (inspects_typeOf y).upholds.bind fun ty' => ?_
  exact Upholds.bind (anchors_define plan.holder template.name y) fun _ => upholds_pure _

/-- **The fields of a structure are built**, if its symbol is there. -/
theorem ends_buildFields_anchored (hs : s.symbols.Anchored n) {p : Population}
    (hholder : ∀ y ∈ s.types.namer? p.target, y.index < n) (node : StructureNode) :
    Ends (buildFields ctx cloner p node) s
      (fun node' t => t.symbols.Anchored n ∧ node'.symbol = node.symbol)
      fun _ t => t.symbols.Anchored n := by
  unfold buildFields
  refine ends_bind.2 ((inspects_kindOf p.source s).imp ?_ fun _ _ he => he.1 ▸ hs)
  rintro sourceKind _ rfl
  refine ends_bind.2 ((inspects_kindOf p.target _).imp ?_ fun _ _ he => he.1 ▸ hs)
  rintro kind _ rfl
  refine ends_bind.2 ((ends_symbolOf_namer p.target).imp ?_ fun _ _ ht => ht ▸ hs)
  rintro holder _ ⟨rfl, hnamer⟩
  refine ends_bind.2
    (((inspects_fieldsOf p.source).upholds _ hs).imp (fun templates t ht => ?_) fun _ _ he => he)
  have hfields : Anchors n (templates.values.mapM (buildField ctx cloner
      { holder, kind, package := p.package, span := p.span, flags := p.flags
        immutable := p.immutable })) :=
    Upholds.mapM fun f => anchors_buildField hcloner (hholder holder hnamer) f
  refine ends_bind.2 ((hfields _ ht).imp (fun built t ht => ?_) fun _ _ he => he)
  refine ends_bind.2
    ((upholds_setFields p.target built _ ht).imp (fun _ t ht => ?_) fun _ _ he => he)
  split
  · refine ends_bind.2
      (((inspects_sourceReference _ _).upholds _ ht).imp (fun _ t ht => ?_) fun _ _ he => he)
    exact ends_pure.2 ⟨ht, rfl⟩
  · exact ends_pure.2 ⟨ht, rfl⟩

end Fields

theorem anchors_fieldDeclarations (ty : TypeId) (package : PackageId) :
    Anchors n (fieldDeclarations ty package) := by
  refine (composes_anchors n).fieldDeclarations (fun d hd => ?_) ty package
  exact anchors_addSymbol .variable (by simp [hd])

/-! ## Definitions and nodes -/

theorem anchors_registerDefinition (ty : TypeId) (y : SymbolId) (node : TypeNode) :
    Anchors n (registerDefinition ty y node) :=
  (composes_anchors n).registerDefinition upholds_registerType ty y node

/-- A new symbol belongs to the owner of its template. -/
theorem anchors_registerSynthesizedDefinition (ty : TypeId) (template : SymbolId)
    (node : TypeNode) : Anchors n (registerSynthesizedDefinition ty template node) := by
  intro s hs
  unfold registerSynthesizedDefinition
  refine ends_bind.2 (ends_symbol.2 ⟨fun named hnamed => Anchors.ends ?_ hs, fun _ => hs⟩)
  have howner : ∀ y ∈ named.owner, y.index < s.symbols.symbols.size := fun y hy =>
    ((hs.wellOwned template (SymbolTable.lt_of_find hnamed)).owner ⟨named, hnamed, hy⟩).lt_size
  refine Upholds.bind (anchors_addSymbol .typeDefinition howner) fun y => ?_
  refine Upholds.bind (anchors_openScope y) fun _ => (upholds_reading _).bind fun e => ?_
  split
  · refine Upholds.bind ?_ fun _ => anchors_registerDefinition ty y node
    exact anchors_changeSymbol _ fun found => found.mapTypeLinks_owner _
  · exact anchors_registerDefinition ty y node

theorem anchors_registerClassOf (span : Span) (y : SymbolId) :
    Anchors n (registerClassOf span y) :=
  (composes_anchors n).registerClassOf anchors_fieldDeclarations upholds_registerClass span y

theorem anchors_recordNode (ty : TypeId) (package : PackageId) (span : Span) :
    Anchors n (recordNode ty package span) :=
  (composes_anchors n).recordNode anchors_fieldDeclarations ty package span

theorem anchors_objectNode (ty : TypeId) (span : Span) : Anchors n (objectNode ty span) :=
  (composes_anchors n).objectNode anchors_fieldDeclarations ty span

theorem anchors_errorNode (ty : TypeId) (span : Span) : Anchors n (errorNode ty span) :=
  (composes_anchors n).errorNode upholds_nextName ty span

/-- The symbol of the definition of an anonymous record belongs to the owner of the scope. -/
theorem anchored_anonymousTable (hs : s.symbols.Anchored n) (hctx : ctx.scopeOwner.index < n)
    (ty : TypeId) (record : Symbol) (package : PackageId) (span : Span) :
    (anonymousTable s ctx ty record package span).Anchored n := by
  have hmade : Anchors n (anonymousDefinitionSymbol ctx ty record package span) := by
    unfold anonymousDefinitionSymbol
    refine Upholds.bind (anchors_addSymbol .typeDefinition ?_) fun y => ?_
    · rintro _ ⟨⟩
      exact hctx
    refine Upholds.bind (anchors_openScope y) fun _ => ?_
    exact Upholds.bind (anchors_define y record.name y) fun _ => upholds_pure y
  exact (hmade s hs).of_ok (anonymousDefinitionSymbol_eq ty record package span s ctx)

/-- **An anonymous record is registered.** The symbol of its definition belongs to the owner of the
scope, and its fields to its own symbol; both are there, or it stops before anything is added. -/
theorem anchors_registerAnonymousRecord (ty : TypeId) (span : Span) :
    Anchors n (registerAnonymousRecord ctx ty span) := by
  intro s hs
  refine ends_of_anchored_size hs ?_
  have hall := hs.wellOwned.anchored
  unfold registerAnonymousRecord
  refine ends_bind.2 ((inspects_requireRecord ty s).imp ?_ fun _ _ he => he.1 ▸ hall)
  rintro _ _ rfl
  refine ends_bind.2 ((ends_symbolOf_namer ty).imp ?_ fun _ _ ht => ht ▸ hall)
  rintro recordSymbol s ⟨rfl, hnamer⟩
  refine ends_bind.2 (ends_symbol.2 ⟨fun record hrecord => ?_, fun _ => hall⟩)
  refine ends_bind.2 (ends_symbol.2 ⟨fun outer houter => ?_, fun _ => hall⟩)
  have hmade := anchored_anonymousTable hall (SymbolTable.lt_of_find houter) ty record outer.package
    span
  -- up to the fields, only symbols and scopes are touched
  refine ends_bind.2 ((ends_of_ok (anonymousDefinitionSymbol_eq ty record _ span s ctx)).2 ?_)
  refine ends_bind.2 (ends_openScope.2 ⟨fun _ _ hopen => ?_, fun _ _ => hmade⟩)
  have hopened := hmade.openScope hopen
  refine ends_bind.2 (ends_onSymbols.2 ⟨fun _ hchange => ?_, fun _ _ => hopened⟩)
  have hchanged := hopened.change hchange fun _ => rfl
  refine ends_bind.2 ((ends_changeTypeLinks_anchored hchanged _ _ _).imp ?_ fun _ _ he => he)
  rintro _ t ⟨ht, htypes⟩
  have hholder : ∀ y ∈ t.types.namer? ty, y.index < s.symbols.symbols.size := by
    rw [htypes]
    intro y hy
    obtain rfl := Option.some.inj (hnamer.symm.trans hy)
    exact SymbolTable.lt_of_find hrecord
  refine ends_bind.2 ((ends_buildFields_anchored (by simp) ht hholder _).imp ?_ fun _ _ he => he)
  rintro node t ⟨ht, -⟩
  refine Upholds.bind (anchors_fieldDeclarations ty _) (fun fields => ?_) t ht
  exact Upholds.bind (upholds_changeType ty _) fun _ => upholds_registerType _

/-! ## Readonly variants -/

/-- The symbol of a clone belongs to the owner of the stamp. -/
theorem anchors_openClone {stamp : Stamp} (hstamp : stamp.owner.index < n) (source : TypeId)
    (named : Symbol) (b : Blueprint) : Anchors n (openClone stamp source named b) := by
  have h := composes_anchors n
  unfold openClone
  refine h.bind (h.cloneName upholds_nextName stamp named) fun name => ?_
  refine h.bind (h.addReadonly upholds_addType source _) fun clone => ?_
  refine h.bind (anchors_addSymbol _ ?_) fun y => ?_
  · rintro _ ⟨⟩
    exact hstamp
  exact h.bind (anchors_openScope y) fun _ => h.bind (upholds_changeType clone _) fun _ =>
    upholds_pure _

section Clones

variable {cloner : Cloner}
  (hcloner : ∀ n stamp ty, ctx.scopeOwner.index < n → stamp.owner.index < n →
    Anchors n (cloner stamp ty))
include hcloner

/-- What the fields of a clone need belongs to the owner of the scope, and the rest to that of the
stamp. -/
theorem ends_fillClone_anchored (hs : s.symbols.Anchored n) {stamp : Stamp} {clone : TypeId}
    (hctx : ctx.scopeOwner.index < n) (hstamp : stamp.owner.index < n)
    (hholder : ∀ y ∈ s.types.namer? clone, y.index < n) (source : TypeId) (b : Blueprint)
    (y : SymbolId) :
    Ends (fillClone ctx cloner stamp source b clone y) s
      (fun node t => t.symbols.Anchored n ∧ node.symbol = some y)
      fun _ t => t.symbols.Anchored n := by
  have hfields : ∀ cl ∈ some cloner, ∀ stamp ty, stamp.owner = ctx.scopeOwner →
      Anchors n (cl stamp ty) := by
    rintro _ ⟨⟩ stamp ty howner
    exact hcloner n stamp ty hctx (howner ▸ hctx)
  rw [fillClone_eq]
  refine ends_bind.2 ((ends_buildFields_anchored hfields hs hholder _).imp ?_ fun _ _ he => he)
  rintro node t ⟨ht, hnode⟩
  have hfinish : Anchors n (finishClone cloner stamp b clone node) :=
    (composes_anchors n).finishClone (fun ty => hcloner n stamp ty hctx hstamp)
      (fun _ => upholds_changeType clone _) (anchors_fieldDeclarations clone _) b node
  refine ends_iff.2 ⟨fun node' u hu => ⟨(hfinish t ht).of_ok hu, ?_⟩,
    fun _ _ he => (hfinish t ht).of_error he⟩
  obtain ⟨fields, rfl⟩ := finishClone_eq_ok hu
  exact hnode

/-- **The clone of a structure**: its fields and its initializer belong to its own symbol, which is
there by then. -/
theorem anchors_makeClone {stamp : Stamp} (hctx : ctx.scopeOwner.index < n)
    (hstamp : stamp.owner.index < n) (source : TypeId) (b : Blueprint) :
    Anchors n (makeClone ctx cloner stamp source b) := by
  unfold makeClone
  refine (inspects_symbolOf source).upholds.bind fun x => (upholds_reading _).bind fun named => ?_
  intro s hs
  have hopen := anchors_openClone hstamp source named b s hs
  refine ends_bind.2 (ends_iff.2 ⟨fun ⟨clone, y⟩ t ht => ?_, fun _ _ he => hopen.of_error he⟩)
  have hanchored := hopen.of_ok ht
  have hstarts := (ends_openClone_starts stamp source named b).of_ok ht
  have hy : y.index < t.symbols.symbols.size := by
    obtain ⟨a, hsymbols, -⟩ := hstarts.symbols
    rw [hstarts.holder_index, hsymbols, Array.size_push]
    exact Nat.lt_succ_self _
  refine ends_of_anchored_size hanchored ?_
  have hall := hanchored.wellOwned.anchored
  have hle : n ≤ t.symbols.symbols.size := hanchored.size_le
  have hholder : ∀ z ∈ t.types.namer? clone, z.index < t.symbols.symbols.size := by
    obtain ⟨e, he, -, hsymbol⟩ := hstarts.find_clone
    rw [TypeTable.namer?_of_find he, hsymbol]
    rintro _ ⟨⟩
    exact hy
  have hfill := ends_fillClone_anchored (s := { t with pending := t.pending.insert source clone })
    hcloner hall (Nat.lt_of_lt_of_le hctx hle) (Nat.lt_of_lt_of_le hstamp hle) hholder source b y
  refine ends_bind.2 (ends_whilePending.2 (hfill.imp ?_ fun _ _ he => he))
  rintro node u ⟨hu, hnode⟩
  -- the node still has the symbol of the clone
  let node' : StructureNode := { node with sealed := b.sealed }
  have howner : ∀ z ∈ node'.holder? u.types, z.index < t.symbols.symbols.size := by
    rw [StructureNode.holder?_of_symbol (show node'.symbol = some y from hnode)]
    rintro _ ⟨⟩
    exact hy
  have hattach := ends_attachInitializer_anchored
    (s := { u with pending := u.pending.erase source }) hu ctx node' howner
  refine ends_bind.2 (hattach.imp (fun r v hv => ?_) fun _ _ he => he)
  exact Upholds.bind (anchors_registerDefinition clone y _) (fun _ => upholds_pure clone) v hv

end Clones

/-- **The search for a readonly variant**, at every depth. -/
theorem anchors_readonlyWithin (ctx : Context) (fuel n : Nat) (stamp : Stamp) (ty : TypeId)
    (hctx : ctx.scopeOwner.index < n) (hstamp : stamp.owner.index < n) :
    Anchors n (readonlyWithin ctx fuel stamp ty) := by
  induction fuel generalizing n stamp ty with
  | zero => exact upholds_stop _
  | succ fuel ih =>
    exact (composes_anchors n).cloneStep (anchors_makeClone ih hctx hstamp)
      (fun ty => ih n stamp ty hctx hstamp) upholds_addType upholds_remember ty

theorem anchors_readonlyVariant {stamp : Stamp} (hctx : ctx.scopeOwner.index < n)
    (hstamp : stamp.owner.index < n) (ty : TypeId) :
    Anchors n (readonlyVariant ctx stamp ty) := by
  intro s h
  have hs := anchors_readonlyWithin ctx (cloneDepth s.types.entries.size) n stamp ty hctx hstamp s h
  rw [ends_iff] at hs ⊢
  exact hs

end Synth

end StructuralTypes
