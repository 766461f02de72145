import StructuralTypes.Proofs.Attachment.Field
import StructuralTypes.Proofs.Initializer

/-!
# Recorded initializers in a session

An initializer is bound before it is recorded, and a clone gets its scope before its initializer, so
both leave the records borne out.

The registration of an anonymous record does not: it gives the symbol of the record a new scope, and
the initializer that the symbol may have recorded is bound in the old one.

Results:
* **`upholds_attachInitializer`**: a structure gets an initializer.
* **`upholds_readonlyVariant`**: a readonly variant is searched for.
* **`registerAnonymousRecord_linksBound_iff`**: when the records are still borne out after the
  registration of an anonymous record.
-/

namespace StructuralTypes

namespace Synth

open SymbolTable

variable {β : Type} {I : SymbolTable → Prop}

/-! ## Initializers -/

section Initializers

variable {s t : Session}

/-- The name of a type is read. -/
theorem ends_nameOf (ty : TypeId) :
    Ends (nameOf ty) s (fun _ t => t = s) fun _ t => t = s := by
  unfold nameOf symbolOf
  refine ends_bind.2 (ends_bind.2 (ends_reading.2 ⟨fun e _ => ?_, fun _ _ => rfl⟩))
  split
  · refine ends_pure.2 (ends_bind.2 (ends_reading.2 ⟨fun named _ => ?_, fun _ _ => rfl⟩))
    dsimp only
    split <;> rfl
  · rfl

/-- A type without a name gets no initializer, and nothing has been made by then. -/
theorem createInitializer_eq_error (ctx : Context) {plan : InitializerPlan} {x : Stop}
    (hname : nameOf plan.ty s = .error x t) : createInitializer ctx plan s = .error x s := by
  obtain rfl := (ends_nameOf plan.ty).of_error hname
  exact bind_eq_error_iff.2 (.inr ⟨_, t, rfl, bind_of_error hname⟩)

/-- The initializer records nothing itself. -/
theorem retains_initializerSession (s : Session) (ctx : Context) (plan : InitializerPlan)
    (name : String) : s.symbols.Retains (initializerSession s ctx plan name).symbols := by
  obtain ⟨hsymbols, hscopes, -⟩ := grows_initializerSession s ctx plan name
  refine .grow hsymbols hscopes fun y found hfound => ?_
  rw [find_eq_ok_iff] at hfound ⊢
  simp only [initializerSession, Array.getElem?_push] at hfound
  split at hfound
  · exact .inr (Option.some.inj hfound ▸ rfl)
  split at hfound
  · exact .inr (Option.some.inj hfound ▸ rfl)
  split at hfound
  · exact .inr (Option.some.inj hfound ▸ rfl)
  · exact .inl hfound

/-- It is a function of its owner, and the variable that it is called on is its own. -/
theorem initializes_initializerSession (s : Session) (ctx : Context) (plan : InitializerPlan)
    (name : String) : (initializerSession s ctx plan name).symbols.Initializes
      (initializerNode s ctx plan name).symbol plan.owner :=
  ⟨initializerSymbol s plan name, ⟨s.symbols.symbols.size⟩, receiverSymbol s ctx plan,
    find_initializerSymbol s ctx plan name, rfl, rfl, find_receiverSymbol s ctx plan name, rfl⟩

/-- A name is bound, or nothing changes. -/
theorem ends_define_bindsTo (owner : SymbolId) (name : String) (y : SymbolId) :
    Ends (define owner name y) s
      (fun _ t => s.symbols.Retains t.symbols ∧ t.symbols.BindsTo owner name y)
      fun _ t => t = s := by
  cases howner : s.symbols.find owner with
  | error e =>
    unfold Ends define onSymbols
    simp [defineIn, scopeOf, howner, Bind.bind, Except.bind]
  | ok named =>
  cases hid : named.scope with
  | none =>
    unfold Ends define onSymbols
    simp [defineIn, scopeOf, howner, hid, Bind.bind, Except.bind]
  | some id =>
  unfold Ends define onSymbols
  cases hdefine : s.symbols.define id name y with
  | error e => simp [defineIn, scopeOf, howner, hid, hdefine, Bind.bind, Except.bind]
  | ok u =>
    simp only [defineIn, scopeOf, howner, hid, hdefine, Bind.bind, Except.bind]
    refine ⟨.define hdefine, ?_⟩
    obtain ⟨found, extended, hfound, hextended, rfl⟩ := define_eq_ok hdefine
    obtain ⟨-, rfl⟩ := Scope.define_eq_ok_iff.1 hextended
    refine ⟨named, id, _, howner, hid, findScope_set_self hfound _, ?_⟩
    unfold Scope.get?
    rw [OrderedMap.get?_insert, if_pos rfl]

/-- **An initializer is bound before it is recorded.** -/
theorem upholds_attachInitializer (ctx : Context) (node : StructureNode) :
    Upholds (LinksBound ·.symbols) (attachInitializer ctx node) := by
  unfold attachInitializer
  split
  · exact upholds_stop _
  rename_i ty hty
  refine Upholds.bind ?_ fun owner => ?_
  · cases node.symbol with
    | none => exact (inspects_symbolOf ty).upholds
    | some owner => exact upholds_pure owner
  intro s h
  refine ends_bind.2 ?_
  cases hname : nameOf ty s with
  | error e t =>
    exact (ends_of_error (createInitializer_eq_error ctx hname)).2 h
  | ok name t =>
    obtain rfl := (ends_nameOf ty).of_ok hname
    refine (ends_of_ok (createInitializer_eq ctx hname)).2 ?_
    have hmade := retains_initializerSession t ctx
      { ty, owner, suffix := ctx.settings.initializerSuffix
        returns := ctx.settings.initializerReturns.getD Builtin.nil, span := node.span } name
    refine ends_bind.2 ((ends_define_bindsTo owner _ _).imp ?_ ?_)
    rotate_left
    · rintro _ _ rfl
      exact h.retain hmade
    rintro _ u ⟨hdefined, hbound⟩
    refine ends_bind.2 ?_
    unfold changeTypeLinks
    have hall := (h.retain hmade).retain hdefined
    refine ends_bind.2 (ends_symbol.2 ⟨fun named howner => ?_, fun _ => hall⟩)
    split
    rotate_left
    · exact hall
    rename_i info hinfo
    have hkind : named.kind = .type info := by
      unfold Symbol.typeLinks? at hinfo
      split at hinfo
      · cases hinfo
        assumption
      · cases hinfo
    refine (ends_of_ok (changeSymbol_eq howner _)).2 (ends_pure.2 ?_)
    exact hall.record howner hkind hbound
      (hdefined.initializes (initializes_initializerSession t ctx _ name))

end Initializers

/-! ## Definitions -/

/-- A new symbol that records nothing gets a scope. -/
theorem upholds_newScope {kind : SymbolKind} (hkind : kind.Unlinked) (d : Declaration)
    {f : SymbolId → Synth β} (hf : ∀ y, Upholds (LinksBound ·.symbols) (f y)) :
    Upholds (LinksBound ·.symbols) (do
      let y ← addSymbol kind d
      let _ ← openScope y
      f y) := by
  intro s h
  have hfind := find_add_self s.symbols kind d
  refine ends_bind.2 (ends_addSymbol.2 (ends_bind.2 ((ends_of_ok (openScope_eq hfind)).2 ?_)))
  refine hf _ _ ((h.retain (.add kind d hkind)).retain (.set hfind (.push _ _) rfl rfl rfl ?_))
  have hnone : Symbol.initializer? { d with id := ⟨s.symbols.symbols.size⟩, kind } = none :=
    Symbol.initializer?_eq_none hkind
  simp [hnone]

theorem upholds_registerDefinition (ty : TypeId) (y : SymbolId) (node : TypeNode) :
    Upholds (I ·.symbols) (registerDefinition ty y node) :=
  (composes_upholds I).registerDefinition upholds_registerType ty y node

theorem upholds_registerSynthesizedDefinition (ty : TypeId) (template : SymbolId)
    (node : TypeNode) :
    Upholds (LinksBound ·.symbols) (registerSynthesizedDefinition ty template node) := by
  unfold registerSynthesizedDefinition
  refine (upholds_reading _).bind fun named => ?_
  refine upholds_newScope (by simp [SymbolKind.Unlinked]) _ fun y => ?_
  refine (upholds_reading _).bind fun e => ?_
  split
  · refine Upholds.bind ?_ fun _ => upholds_registerDefinition ty y node
    exact upholds_changeSymbol robust_linksBound _ fun _ =>
      Symbol.linkedAs_mapTypeLinks _ fun _ => rfl
  · exact upholds_registerDefinition ty y node

theorem upholds_registerClassOf (span : Span) (classSymbol : SymbolId) :
    Upholds (LinksBound ·.symbols) (registerClassOf span classSymbol) :=
  (composes_upholds LinksBound).registerClassOf (upholds_fieldDeclarations robust_linksBound)
    upholds_registerClass span classSymbol

/-! ## Readonly variants -/

section Clones

variable {ctx : Context} {cl : Cloner}

theorem upholds_openClone (stamp : Stamp) (source : TypeId) (named : Symbol) (b : Blueprint) :
    Upholds (LinksBound ·.symbols) (openClone stamp source named b) := by
  have h := composes_upholds LinksBound
  unfold openClone
  refine (h.cloneName upholds_nextName stamp named).bind fun name => ?_
  refine (h.addReadonly upholds_addType source _).bind fun clone => ?_
  refine upholds_newScope ?_ _ fun y => (upholds_changeType clone _).bind fun _ => upholds_pure _
  rintro _ ⟨⟩
  rfl

theorem upholds_fillClone (hcl : ∀ stamp ty, Upholds (LinksBound ·.symbols) (cl stamp ty))
    (stamp : Stamp) (source : TypeId) (b : Blueprint) (clone : TypeId) (y : SymbolId) :
    Upholds (LinksBound ·.symbols) (fillClone ctx cl stamp source b clone y) := by
  have hcl' : ∀ c ∈ some cl, ∀ stamp ty, Upholds (LinksBound ·.symbols) (c stamp ty) := by
    rintro _ ⟨⟩
    exact hcl
  rw [fillClone_eq]
  exact (upholds_buildFields robust_linksBound hcl' _ _).bind
    ((composes_upholds _).finishClone (hcl stamp) (fun _ => upholds_changeType clone _)
      (upholds_fieldDeclarations robust_linksBound _ _) b)

/-- The clone gets its scope before its initializer. -/
theorem upholds_makeClone (hcl : ∀ stamp ty, Upholds (LinksBound ·.symbols) (cl stamp ty))
    (stamp : Stamp) (source : TypeId) (b : Blueprint) :
    Upholds (LinksBound ·.symbols) (makeClone ctx cl stamp source b) := by
  unfold makeClone
  refine (inspects_symbolOf source).upholds.bind fun y => (upholds_reading _).bind fun named => ?_
  refine (upholds_openClone stamp source named b).bind fun ⟨clone, y⟩ => ?_
  refine (upholds_whilePending (upholds_fillClone hcl stamp source b clone y)).bind fun node => ?_
  refine (upholds_attachInitializer ctx _).bind fun ⟨_, node⟩ => ?_
  exact (upholds_registerDefinition clone y _).bind fun _ => upholds_pure _

theorem upholds_readonlyWithin (ctx : Context) (n : Nat) (stamp : Stamp) (ty : TypeId) :
    Upholds (LinksBound ·.symbols) (readonlyWithin ctx n stamp ty) := by
  induction n generalizing stamp ty with
  | zero => exact upholds_stop _
  | succ n ih =>
    exact (composes_upholds _).cloneStep (upholds_makeClone ih stamp) (ih stamp) upholds_addType
      upholds_remember ty

/-- **The search for a readonly variant leaves all records borne out.** -/
theorem upholds_readonlyVariant (ctx : Context) (stamp : Stamp) (ty : TypeId) :
    Upholds (LinksBound ·.symbols) (readonlyVariant ctx stamp ty) := by
  intro s h
  have hs := upholds_readonlyWithin ctx (cloneDepth s.types.entries.size) stamp ty s h
  rw [ends_iff] at hs ⊢
  exact hs

end Clones

/-! ## Anonymous records -/

/-- The registration of `ty` as an anonymous record gives a new scope to a symbol that records an
initializer. -/
def Reopens (ctx : Context) (ty : TypeId) (s : Session) : Prop :=
  ∃ e r y link, s.types.find ty = .ok e ∧ e.ty = .record r ∧ e.symbol = some y ∧
    s.symbols.Records y link ∧ ctx.scopeOwner.index < s.symbols.symbols.size

/-- What is registered then is a record, whose symbol records the initializer. -/
theorem Reopens.of_find {ctx : Context} {ty : TypeId} {s : Session} {e : TypeEntry}
    (h : Reopens ctx ty s) (he : s.types.find ty = .ok e) :
    ∃ r y link, e.ty = .record r ∧ e.symbol = some y ∧ s.symbols.Records y link ∧
      ctx.scopeOwner.index < s.symbols.symbols.size := by
  obtain ⟨e', r, y, link, he', hrest⟩ := h
  obtain rfl := Except.ok.inj (he.symm.trans he')
  exact ⟨r, y, link, hrest⟩

section AnonymousRecords

variable {ctx : Context} {s : Session}

/-- The symbol of the definition of an anonymous record. -/
def anonymousSymbol (s : Session) (ctx : Context) (ty : TypeId) (record : Symbol)
    (package : PackageId) (span : Span) : Symbol :=
  { name := record.name, package, flags := record.flags, origin := .virtual, span, ty := some ty
    owner := some ctx.scopeOwner, id := ⟨s.symbols.symbols.size⟩, kind := .typeDefinition
    scope := some ⟨s.symbols.scopes.size⟩ }

/-- The scope of that symbol. -/
def anonymousScope (s : Session) (record : Symbol) : Scope :=
  { id := ⟨s.symbols.scopes.size⟩, owner := ⟨s.symbols.symbols.size⟩
    bindings := (∅ : OrderedMap String SymbolId).insert record.name ⟨s.symbols.symbols.size⟩ }

/-- The symbols and scopes with both. -/
def anonymousTable (s : Session) (ctx : Context) (ty : TypeId) (record : Symbol)
    (package : PackageId) (span : Span) : SymbolTable :=
  { symbols := s.symbols.symbols.push (anonymousSymbol s ctx ty record package span)
    scopes := s.symbols.scopes.push (anonymousScope s record) }

variable (ty : TypeId) (record : Symbol) (package : PackageId) (span : Span)

/-- The symbol is added, with a scope that binds its own name. -/
theorem anonymousDefinitionSymbol_eq (s : Session) (ctx : Context) :
    anonymousDefinitionSymbol ctx ty record package span s = .ok ⟨s.symbols.symbols.size⟩
      { s with symbols := anonymousTable s ctx ty record package span } := by
  unfold anonymousDefinitionSymbol
  refine bind_eq_ok_iff.2 ⟨_, _, rfl, ?_⟩
  refine bind_eq_ok_iff.2 ⟨_, _, openScope_eq (find_add_self _ _ _), ?_⟩
  simp only [Grows.setIfInBounds_push]
  refine bind_eq_ok_iff.2 ⟨_, _, define_eq (find_eq_ok_iff.2 Array.getElem?_push_size) rfl
    (findScope_eq_ok_iff.2 Array.getElem?_push_size) (by simp), ?_⟩
  simp only [Grows.setIfInBounds_push]
  rfl

/-- Neither the symbol nor the scope changes anything that was there. -/
theorem retains_anonymousTable (s : Session) (ctx : Context) :
    s.symbols.Retains (anonymousTable s ctx ty record package span) := by
  refine .grow (.push _ _) (.push _ _) fun z found hfound => ?_
  rw [find_eq_ok_iff] at hfound ⊢
  simp only [anonymousTable, Array.getElem?_push] at hfound
  split at hfound
  · exact .inr (Option.some.inj hfound ▸ rfl)
  · exact .inl hfound

/-- What comes after the new scope is work on fields. -/
theorem upholds_rebuild {n : Nat} (hI : Robust n I) (ctx : Context)
    (recordSymbol definitionSymbol : SymbolId) :
    Upholds (I ·.symbols) (do
      changeSymbol recordSymbol fun s => { s with ty := some ty }
      changeTypeLinks recordSymbol .definitionLink fun info =>
        { info with definition := some definitionSymbol }
      let node ← buildFields ctx none
        { target := ty, source := ty, package, span, flags := .only .required }
        { span, ty := some ty, symbol := some recordSymbol }
      let fields ← fieldDeclarations ty package
      changeType ty fun e => { e with ty := e.ty.withRest Builtin.absent }
      registerType {
        name := ⟨record.name, span⟩, ty := some ty, symbol := definitionSymbol
        node := .record { node with fields, sealed := true, analyzed := true }
        flags := .only .exported ∪ .only .anonymous, span }) := by
  refine Upholds.bind (upholds_changeSymbol hI _ ?_) fun _ => ?_
  · exact fun named => ⟨rfl, rfl, rfl, rfl⟩
  refine Upholds.bind (upholds_changeTypeLinks hI _ _ ?_) fun _ => ?_
  · exact fun info => rfl
  refine (upholds_buildFields hI (by simp) _ _).bind fun node => ?_
  refine (upholds_fieldDeclarations hI ty package).bind fun fields => ?_
  exact (upholds_changeType ty _).bind fun _ => upholds_registerType _

/-- **After the registration of an anonymous record, the records are borne out exactly if it has
given no new scope to a symbol that records an initializer.** -/
theorem registerAnonymousRecord_linksBound_iff (h : s.symbols.LinksBound) (ctx : Context) :
    Ends (registerAnonymousRecord ctx ty span) s
      (fun _ t => t.symbols.LinksBound ↔ ¬Reopens ctx ty s)
      fun _ t => t.symbols.LinksBound ↔ ¬Reopens ctx ty s := by
  have hstays : ¬Reopens ctx ty s → (s.symbols.LinksBound ↔ ¬Reopens ctx ty s) :=
    fun hno => iff_of_true h hno
  unfold registerAnonymousRecord requireRecord
  -- there is a record type with a symbol, and a scope to work in, or nothing happens
  refine ends_bind.2 (ends_bind.2 (ends_reading.2 ⟨fun e he => ?_, fun x hx => hstays ?_⟩))
  rotate_left
  · rintro ⟨e, r, y, link, he, -⟩
    simp [he] at hx
  split
  rotate_left
  · rename_i hrecord
    refine hstays fun hreopens => ?_
    obtain ⟨r, -, -, hr, -⟩ := hreopens.of_find he
    exact hrecord r hr
  rename_i r hr
  refine ends_pure.2 ?_
  cases hy : e.symbol with
  | none =>
    refine ends_bind.2 ((ends_of_error (symbolOf_eq_error he hy)).2 (hstays fun hreopens => ?_))
    obtain ⟨-, y, -, -, hy', -⟩ := hreopens.of_find he
    simp [hy] at hy'
  | some y =>
  refine ends_bind.2 ((ends_of_ok (symbolOf_eq he hy)).2 ?_)
  refine ends_bind.2 (ends_symbol.2 ⟨fun named hnamed => ?_,
    fun hmissing => hstays fun hreopens => ?_⟩)
  rotate_left
  · obtain ⟨-, y', link, -, hy', ⟨named, hnamed, -⟩, -⟩ := hreopens.of_find he
    obtain rfl := Option.some.inj (hy.symm.trans hy')
    exact absurd (lt_of_find hnamed) (Nat.not_lt_of_le hmissing)
  refine ends_bind.2 (ends_symbol.2 ⟨fun outer houter => ?_, fun hmissing => hstays ?_⟩)
  rotate_left
  · rintro ⟨_, _, _, _, -, -, -, -, hlt⟩
    exact absurd hlt (Nat.not_lt_of_le hmissing)
  -- the symbol of the record gets a new scope
  refine ends_bind.2 ((ends_of_ok (anonymousDefinitionSymbol_eq _ _ _ _ _ _)).2 ?_)
  have hnamed' : (anonymousTable s ctx ty named outer.package span).find y = .ok named :=
    find_mono (.push _ _) hnamed
  refine ends_bind.2 ((ends_of_ok (openScope_eq hnamed')).2 ?_)
  cases hlink : named.initializer? with
  | none =>
    have hno : ¬Reopens ctx ty s := by
      intro hreopens
      obtain ⟨-, y', link, -, hy', ⟨found, hfound, hrecorded⟩, -⟩ := hreopens.of_find he
      obtain rfl := Option.some.inj (hy.symm.trans hy')
      obtain rfl := Except.ok.inj (hnamed.symm.trans hfound)
      simp [hlink] at hrecorded
    refine (upholds_rebuild ty named outer.package span robust_linksBound ctx y _ _ ?_).imp
      (fun _ _ ht => iff_of_true ht hno) fun _ _ ht => iff_of_true ht hno
    refine (h.retain (retains_anonymousTable ty named outer.package span s ctx)).retain ?_
    exact .set hnamed' (.push _ _) rfl rfl rfl (by simp [hlink])
  | some link =>
    have hyes : Reopens ctx ty s :=
      ⟨e, r, y, link, he, hr, hy, ⟨named, hnamed, hlink⟩, lt_of_find houter⟩
    have hbroken : ∀ t : Session, Overtaken y link s.symbols.symbols.size t.symbols →
        (t.symbols.LinksBound ↔ ¬Reopens ctx ty s) :=
      fun t ht => iff_of_false ht.not_linksBound (not_not_intro hyes)
    refine (upholds_rebuild ty named outer.package span (robust_overtaken y link _) ctx y _ _
      ?_).imp (fun _ t => hbroken t) fun _ t => hbroken t
    obtain ⟨f, -, -, hf, -⟩ := (h y link ⟨named, hnamed, hlink⟩).2
    refine ⟨lt_of_find hf, by simp [anonymousTable], _, _, _,
      find_eq_ok_iff.2 (Array.getElem?_setIfInBounds_self_of_lt (lt_of_find hnamed')), hlink, rfl,
      findScope_eq_ok_iff.2 Array.getElem?_push_size, fun name z hz => ?_⟩
    simp [Scope.get?] at hz

end AnonymousRecords

end Synth

end StructuralTypes
