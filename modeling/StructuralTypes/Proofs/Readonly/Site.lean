import StructuralTypes.Proofs.Initializer
import StructuralTypes.Proofs.Readonly.Descent

/-!
# Work on an unfinished clone

A structure is cloned in a session where its clone is the only old type that changes: all others are
kept, and what is added are function types. `ChangesOnlyClone clone t u` says so. `Site s d names
body t` says where the work on a `Draft` has come to, whose clone is newer than the session `s` and
whose symbol has a scope that binds just `names`. Each kind of step on the way has one lemma. The
only one of them that can stop is binding a name, where the name is bound already.

Results:
* `Site.of_extends`: going down for a member leaves the site in order.
* `SiteProgress.addSymbol`, `SiteProgress.bindName`, `SiteProgress.changeLinks`: work on symbols.
* `SiteProgress.changeClone`, `SiteProgress.createInitializer`: work on types.
-/

namespace StructuralTypes

/-- Between the sessions `t` and `u`, only the entry of `clone` was changed, and not in kind; all
types added are function types. -/
structure ChangesOnlyClone (clone : TypeId) (t u : Session) : Prop where
  /-- No variant is remembered or forgotten. -/
  memo : u.memo = t.memo
  /-- The same clones are pending. -/
  pending : u.pending = t.pending
  /-- Nothing is registered. -/
  package : u.package = t.package
  /-- Symbols are only added. -/
  symbols : t.symbols.symbols.size ≤ u.symbols.symbols.size
  /-- Types are only added. -/
  types : t.types.entries.size ≤ u.types.entries.size
  /-- The clone is there. -/
  there : clone.index < t.types.entries.size
  /-- Other types stay as they are. -/
  kept : ∀ ty e, ty ≠ clone → t.types.find ty = .ok e → u.types.find ty = .ok e
  /-- The clone stays what it is, but for what it is made of. -/
  clone : ∀ e, t.types.find clone = .ok e →
    ∃ ty, ty.structureKind? = e.ty.structureKind? ∧ u.types.find clone = .ok { e with ty }
  /-- Function types are the only types added. -/
  added : ∀ i e, t.types.entries.size ≤ i → u.types.entries[i]? = some e → e.ty.isInvokable

namespace ChangesOnlyClone

variable {clone : TypeId} {t u : Session}

theorem refl (there : clone.index < t.types.entries.size) : ChangesOnlyClone clone t t where
  memo := rfl
  pending := rfl
  package := rfl
  symbols := Nat.le_refl _
  types := Nat.le_refl _
  there := there
  kept _ _ _ h := h
  clone e h := ⟨e.ty, rfl, h⟩
  added i e hi he := by
    rw [Array.getElem?_eq_none hi] at he
    simp at he

/-- A change of the clone that keeps its kind. -/
theorem changeClone {e : TypeEntry} (h : ChangesOnlyClone clone t u)
    (he : u.types.find clone = .ok e) {ty : Ty} (hk : ty.structureKind? = e.ty.structureKind?) :
    ChangesOnlyClone clone t
      { u with types := ⟨u.types.entries.setIfInBounds clone.index { e with ty }⟩ } := by
  have hlt := TypeTable.lt_of_find he
  have hset := TypeTable.find_set_self he { e with ty }
  refine { h with types := ?_, kept := ?_, clone := ?_, added := ?_ }
  · simpa using h.types
  · intro x d hne hd
    exact TypeTable.find_set_of_ne hne _ (h.kept x d hne hd)
  · intro d hd
    obtain ⟨ty', hk', hu⟩ := h.clone d hd
    obtain rfl := Except.ok.inj (hu.symm.trans he)
    exact ⟨ty, hk.trans hk', hset⟩
  · intro i d hi hd
    have hne : clone.index ≠ i := Nat.ne_of_lt (Nat.lt_of_lt_of_le h.there hi)
    rw [Array.getElem?_setIfInBounds_ne hne] at hd
    exact h.added i d hi hd

/-- One more function type. -/
theorem addFunction (h : ChangesOnlyClone clone t u) {e : TypeEntry} (he : e.ty.isInvokable) :
    ChangesOnlyClone clone t { u with types := (u.types.add e).2 } := by
  refine { h with types := ?_, kept := ?_, clone := ?_, added := ?_ }
  · simpa [TypeTable.add] using Nat.le_succ_of_le h.types
  · intro x d hne hd
    exact TypeTable.find_add_of_find (h.kept x d hne hd) e
  · intro d hd
    obtain ⟨ty, hk, hu⟩ := h.clone d hd
    exact ⟨ty, hk, TypeTable.find_add_of_find hu e⟩
  · intro i d hi hd
    simp only [TypeTable.add, Array.getElem?_push] at hd
    split at hd
    · exact Option.some.inj hd ▸ he
    · exact h.added i d hi hd

section Structured

variable {e : TypeEntry} (he : t.types.find clone = .ok e) (hk : e.ty.structureKind?.isSome)

include he hk

/-- If the clone is a structure, all other types are kept. -/
theorem find_of_unstructured (h : ChangesOnlyClone clone t u) {ty : TypeId} {d : TypeEntry}
    (hd : t.types.find ty = .ok d) (hn : d.ty.structureKind? = none) : u.types.find ty = .ok d := by
  refine h.kept ty d ?_ hd
  rintro rfl
  obtain rfl := Except.ok.inj (he.symm.trans hd)
  simp [hn] at hk

theorem refersTo (h : ChangesOnlyClone clone t u) {ty target : TypeId}
    (hr : t.types.RefersTo ty target) : u.types.RefersTo ty target :=
  hr.imp fun d hd =>
    ⟨h.find_of_unstructured he hk hd.1 (by simp [hd.2, Ty.structureKind?]), hd.2⟩

/-- A type that failed to resolve has still failed. -/
theorem failed (h : ChangesOnlyClone clone t u) {ty : TypeId} (hf : t.types.Failed ty) :
    u.types.Failed ty := by
  obtain ⟨n, base, d, hr, hd, hty⟩ := hf
  have hbase := h.find_of_unstructured he hk hd (by simp [hty, Ty.structureKind?])
  refine ⟨n, base, d, ?_, hbase, hty⟩
  induction hr with
  | here found stops => exact .here hbase (by simp [hty])
  | next refers _ ih => exact .next (h.refersTo he hk refers) (ih hd hbase)

end Structured

/-- Symbols and names may be added in any way. -/
theorem symbols_le (h : ChangesOnlyClone clone t u) {y : SymbolTable}
    (hy : u.symbols.symbols.size ≤ y.symbols.size) :
    ChangesOnlyClone clone t { u with symbols := y } :=
  { h with symbols := Nat.le_trans h.symbols hy }

/-- Which clones are pending does not matter to the work. -/
theorem of_pending {p : CloneMap} (h : ChangesOnlyClone clone { t with pending := p } u) :
    ChangesOnlyClone clone t { u with pending := t.pending } where
  memo := h.memo
  pending := rfl
  package := h.package
  symbols := h.symbols
  types := h.types
  there := h.there
  kept := h.kept
  clone := h.clone
  added := h.added

end ChangesOnlyClone

/-- A clone of a structure that is being made. -/
structure Draft where
  /-- The clone. -/
  clone : TypeId
  /-- Its symbol. -/
  holder : SymbolId
  /-- Its kind. -/
  kind : StructureKind
  /-- Its flags. -/
  flags : Flags

/-- The entry of the clone, made of what `ty` says. -/
def Draft.entry (d : Draft) (ty : Ty) : TypeEntry :=
  { ty, symbol := some d.holder, flags := d.flags }

/-- The symbol `holder` names a type, and it has a scope, at position `n` or later, that binds just
the names. -/
structure SymbolTable.Opened (y : SymbolTable) (holder : SymbolId) (n : Nat) (names : List String)
    (symbol : Symbol) (id : ScopeId) (scope : Scope) : Prop where
  /-- The symbol is there. -/
  found : y.find holder = .ok symbol
  /-- It is the symbol of a named type. -/
  links : symbol.typeLinks?.isSome
  /-- It has a name. -/
  named : symbol.name.isEmpty = false
  /-- It has the scope. -/
  scope_eq : symbol.scope = some id
  /-- The scope is new. -/
  new : n ≤ id.index
  /-- The scope is there. -/
  scope_found : y.findScope id = .ok scope
  /-- It binds the names. -/
  keys : scope.bindings.keys = names

/-- So it is for some scope. -/
def SymbolTable.Binds (y : SymbolTable) (holder : SymbolId) (n : Nat) (names : List String) :
    Prop :=
  ∃ symbol id scope, y.Opened holder n names symbol id scope

/-- All fields have symbols below the `n`-th one. -/
def Ty.FieldsNamed (ty : Ty) (n : Nat) : Prop :=
  ∀ fields, ty.fields? = some fields → ∀ f ∈ fields.values, ∃ x, f.symbol = some x ∧ x.index < n

theorem Ty.FieldsNamed.mono {ty : Ty} {n m : Nat} (h : ty.FieldsNamed n) (hnm : n ≤ m) :
    ty.FieldsNamed m :=
  fun fields hfields f hf => (h fields hfields f hf).imp fun _ hx =>
    ⟨hx.1, Nat.lt_of_lt_of_le hx.2 hnm⟩

/-- The work on a clone, begun in the session `s`, has come to the session `t`. -/
structure Site (s : Session) (d : Draft) (names : List String) (body : Ty) (t : Session) :
    Prop where
  /-- What was there at the beginning is there. -/
  keeps : s.Extends t
  /-- The clone is new. -/
  clone_new : s.types.entries.size ≤ d.clone.index
  /-- The clone's symbol is new. -/
  holder_new : s.symbols.symbols.size ≤ d.holder.index
  /-- The clone is made of what the body says. -/
  clone_entry : t.types.find d.clone = .ok (d.entry body)
  /-- The clone is of its kind. -/
  kind : body.structureKind? = some d.kind
  /-- Its fields have symbols. -/
  fields : body.FieldsNamed t.symbols.symbols.size
  /-- Its symbol has a new scope, which binds the names. -/
  scope : t.symbols.Binds d.holder s.symbols.scopes.size names

/-- The work has gone on from `t` to `u`. -/
structure SiteProgress (s : Session) (d : Draft) (names : List String) (body : Ty) (t u : Session) :
    Prop where
  /-- Where it has come to. -/
  site : Site s d names body u
  /-- What was done. -/
  changes : ChangesOnlyClone d.clone t u

namespace Site

variable {s t u : Session} {d : Draft} {names : List String} {body : Ty}

theorem there (h : Site s d names body t) : d.clone.index < t.types.entries.size :=
  TypeTable.lt_of_find h.clone_entry

/-- Going down for a member leaves the site in order. -/
theorem of_extends (h : Site s d names body t) (hx : t.Extends u) :
    Site s d names body u where
  keeps := h.keeps.trans hx
  clone_new := h.clone_new
  holder_new := h.holder_new
  clone_entry := hx.find_type h.clone_entry
  kind := h.kind
  fields := h.fields.mono hx.symbols.size_le
  scope := by
    obtain ⟨symbol, id, scope, ho⟩ := h.scope
    exact ⟨symbol, id, scope,
      { ho with found := hx.find_symbol ho.found, scope_found := hx.find_scope ho.scope_found }⟩

/-- The work makes no type resolve that had failed to. -/
theorem failed (h : Site s d names body t) (hw : ChangesOnlyClone d.clone t u) {ty : TypeId}
    (hf : t.types.Failed ty) : u.types.Failed ty :=
  hw.failed h.clone_entry (by simp [Draft.entry, h.kind]) hf

theorem progress (h : Site s d names body t) : SiteProgress s d names body t t :=
  ⟨h, .refl h.there⟩

/-- Work at a site goes on whatever is pending. -/
theorem of_pending {p : CloneMap} (h : Site s d names body t) :
    Site s d names body { t with pending := p } :=
  ⟨⟨h.keeps.symbols, h.keeps.scopes, h.keeps.types, h.keeps.definitions, h.keeps.package,
    h.keeps.memo⟩, h.clone_new, h.holder_new, h.clone_entry, h.kind, h.fields, h.scope⟩

/-- The name of the clone is that of its symbol. -/
theorem nameOf_eq (h : Site s d names body t) :
    ∃ name, Synth.nameOf d.clone t = .ok name t := by
  obtain ⟨symbol, _, _, ho⟩ := h.scope
  refine ⟨symbol.name, ?_⟩
  unfold Synth.nameOf
  refine bind_eq_ok_iff.2 ⟨_, t, Synth.symbolOf_eq h.clone_entry rfl, ?_⟩
  refine bind_eq_ok_iff.2 ⟨symbol, t, Synth.symbol_eq ho.found, ?_⟩
  simp only [ho.named]
  rfl

end Site

/-! ## Steps -/

namespace SiteProgress

open Synth

variable {s t u : Session} {d : Draft} {names : List String} {body : Ty}
  {E : Stop → Session → Prop}

/-! ### Symbols -/

/-- A change of symbols that keeps the old ones and the scope of the clone. -/
theorem symbols {names' : List String} (h : SiteProgress s d names body t u) {y : SymbolTable}
    (hs : Grows s.symbols.symbols y.symbols) (hc : Grows s.symbols.scopes y.scopes)
    (hle : u.symbols.symbols.size ≤ y.symbols.size)
    (hb : y.Binds d.holder s.symbols.scopes.size names') :
    SiteProgress s d names' body t { u with symbols := y } :=
  ⟨{ h.site with
      keeps := { h.site.keeps with symbols := hs, scopes := hc }
      fields := h.site.fields.mono hle
      scope := hb },
    h.changes.symbols_le hle⟩

/-- A symbol is added. -/
theorem addSymbol (h : SiteProgress s d names body t u) (kind : SymbolKind)
    (declaration : Declaration) : Ends (addSymbol kind declaration) u
      (fun x v => SiteProgress s d names body t v ∧
        v.symbols.find x = .ok { declaration with id := x, kind } ∧ v.types = u.types) E := by
  obtain ⟨symbol, id, scope, ho⟩ := h.site.scope
  refine ends_addSymbol.2 ⟨?_, SymbolTable.find_add_self _ _ _, rfl⟩
  refine h.symbols (h.site.keeps.symbols.trans (SymbolTable.grows_add _ _ _)) h.site.keeps.scopes
    (SymbolTable.grows_add _ _ _).size_le ?_
  exact ⟨symbol, id, scope,
    { ho with found := SymbolTable.find_add_of_find ho.found kind declaration }⟩

/-- The links of the clone's symbol are changed. -/
theorem changeLinks (h : SiteProgress s d names body t u) (role : SymbolRole)
    (f : TypeLinks → TypeLinks) :
    Ends (changeTypeLinks d.holder role f) u (fun _ v => SiteProgress s d names body t v) E := by
  obtain ⟨symbol, id, scope, ho⟩ := h.site.scope
  obtain ⟨info, hinfo⟩ := Option.isSome_iff_exists.1 ho.links
  unfold changeTypeLinks
  refine ends_bind.2 ((ends_of_ok (symbol_eq ho.found)).2 ?_)
  rw [hinfo]
  refine (ends_of_ok (changeSymbol_eq ho.found _)).2 ?_
  refine h.symbols (h.site.keeps.symbols.setIfInBounds h.site.holder_new _) h.site.keeps.scopes
    (by simp) ⟨symbol.mapTypeLinks f, id, scope, ?_⟩
  have hkind : symbol.kind = .type info := by
    unfold Symbol.typeLinks? at hinfo
    cases hk : symbol.kind <;> simp_all
  have hmap : symbol.mapTypeLinks f = { symbol with kind := .type (f info) } := by
    unfold Symbol.mapTypeLinks
    rw [hkind]
  rw [hmap]
  exact { ho with found := SymbolTable.find_set_self ho.found _, links := rfl }

/-- A name is bound in the scope of the clone, unless it is bound there. -/
theorem bindName {y : SymbolId} {name : String} (h : SiteProgress s d names body t u) :
    Ends (Synth.define d.holder name y) u
      (fun _ v => name ∉ names ∧ SiteProgress s d (names ++ [name]) body t v ∧
        v.symbols.symbols = u.symbols.symbols ∧ v.types = u.types)
      (fun x v => x ≠ .unending ∧ v = u ∧ name ∈ names) := by
  obtain ⟨symbol, id, scope, ho⟩ := h.site.scope
  by_cases hname : name ∈ names
  · obtain ⟨existing, htaken⟩ :=
      define_taken (x := y) ho.found ho.scope_eq ho.scope_found (ho.keys ▸ hname)
    exact (ends_of_error htaken).2 ⟨by simp, rfl, hname⟩
  · have hnew : name ∉ scope.bindings.keys := ho.keys ▸ hname
    rw [ends_of_ok (define_eq ho.found ho.scope_eq ho.scope_found hnew)]
    refine ⟨hname, ?_, rfl, rfl⟩
    refine h.symbols h.site.keeps.symbols (h.site.keeps.scopes.setIfInBounds ho.new _)
      (Nat.le_refl _) ⟨symbol, id, { scope with bindings := scope.bindings.insert name y },
        { ho with scope_found := ?_, keys := ?_ }⟩
    · exact SymbolTable.findScope_set_self ho.scope_found _
    · rw [OrderedMap.keys_insert_of_not_mem hnew, ho.keys]

/-! ### Types -/

/-- The clone is made of other types, but stays what it is. -/
theorem changeClone {f : Ty → Ty} (h : SiteProgress s d names body t u)
    (hf : (f body).structureKind? = body.structureKind?)
    (hfields : (f body).FieldsNamed u.symbols.symbols.size) :
    Ends (changeType d.clone fun e => { e with ty := f e.ty }) u
      (fun _ v => SiteProgress s d names (f body) t v) E := by
  have he := h.site.clone_entry
  rw [ends_of_ok (changeType_eq he _)]
  have hwork := h.changes.changeClone he hf
  refine ⟨{ h.site with
    keeps := ?_, clone_entry := ?_, kind := hf.trans h.site.kind, fields := hfields }, hwork⟩
  · exact { h.site.keeps with types := h.site.keeps.types.setIfInBounds h.site.clone_new _ }
  · exact TypeTable.find_set_self he _

/-- **The clone gets an initializer**, which is named after it. -/
theorem createInitializer (h : SiteProgress s d names body t u) (ctx : Context)
    {plan : InitializerPlan} (hty : plan.ty = d.clone) : Ends (createInitializer ctx plan) u
      (fun f v => SiteProgress s d names body t v ∧
        ∃ name, f.name.name = attachedName name plan.suffix) E := by
  obtain ⟨name, hname⟩ := h.site.nameOf_eq
  rw [← hty] at hname
  rw [ends_of_ok (createInitializer_eq ctx hname)]
  refine ⟨?_, name, rfl⟩
  have hs : Grows u.symbols.symbols (initializerSession u ctx plan name).symbols.symbols :=
    ((Grows.push _ _).trans (.push _ _)).trans (.push _ _)
  have hc : Grows u.symbols.scopes (initializerSession u ctx plan name).symbols.scopes :=
    .push _ _
  have ht : u.types.Grows (initializerSession u ctx plan name).types := Grows.push _ _
  have hx : u.Extends (initializerSession u ctx plan name) :=
    { symbols := hs, scopes := hc, types := ht, definitions := List.prefix_rfl, package := rfl
      memo := fun _ _ hv => hv }
  exact ⟨h.site.of_extends hx, (h.changes.addFunction rfl).symbols_le hs.size_le⟩

end SiteProgress

end StructuralTypes
