import StructuralTypes.Proofs.Outcome
import StructuralTypes.Proofs.Readonly.Descent
import StructuralTypes.Proofs.Unison.Alike

/-!
# Two runs side by side

`Jointly x x' s s' Q` says of two operations, each in a session of its own, that if both end well,
their results and the sessions that they leave are as `Q` says. There is one rule for each way of
building operations, as for one operation.

Two runs that began in the same session, but in different packages, are in `Unison` if nothing has
come of the difference but names, packages, owners and places: what was there is as it was, and what
was added is alike. So a step of one run and the same step of the other, which may be given other
names, leave them in unison.

Results:
* `jointly_bind`, `jointly_reading`, `jointly_mapM`: the rules.
* `Unison.addSymbol`, `Unison.changeSymbol`, **`Unison.define`**, `Unison.changeType`,
  `Unison.registerType`: the steps.
-/

namespace StructuralTypes

namespace Synth

variable {α β γ δ : Type} {x : Synth α} {x' : Synth β} {s s' : Session}
  {Q Q' : α → Session → β → Session → Prop}

/-- If the operations, run in `s` and `s'`, both end well, then as `Q` says. -/
def Jointly (x : Synth α) (x' : Synth β) (s s' : Session) (Q : α → Session → β → Session → Prop) :
    Prop :=
  ∀ a t b t', x s = .ok a t → x' s' = .ok b t' → Q a t b t'

theorem Jointly.imp (h : Jointly x x' s s' Q) (hQ : ∀ a t b t', Q a t b t' → Q' a t b t') :
    Jointly x x' s s' Q' :=
  fun a t b t' ha hb => hQ a t b t' (h a t b t' ha hb)

theorem jointly_pure {a : α} {b : β} : Jointly (pure a) (pure b) s s' Q ↔ Q a s b s' := by
  constructor
  · exact fun h => h a s b s' rfl rfl
  · rintro h _ _ _ _ ⟨⟩ ⟨⟩
    exact h

/-- An operation that stops does not end well. -/
theorem jointly_stop {e : Stop} : Jointly (stop e) x' s s' Q := by
  rintro _ _ _ _ ⟨⟩

theorem jointly_stop_right {e : Stop} : Jointly x (stop e : Synth β) s s' Q := by
  rintro _ _ _ _ - ⟨⟩

theorem jointly_bind {f : α → Synth γ} {f' : β → Synth δ} {Q : γ → Session → δ → Session → Prop}
    (h : Jointly x x' s s' fun a t b t' => Jointly (f a) (f' b) t t' Q) :
    Jointly (x >>= f) (x' >>= f') s s' Q := by
  intro c u d u' hc hd
  obtain ⟨a, t, ha, hc⟩ := bind_eq_ok_iff.1 hc
  obtain ⟨b, t', hb, hd⟩ := bind_eq_ok_iff.1 hd
  exact h a t b t' ha hb c u d u' hc hd

theorem jointly_map {f : α → γ} {f' : β → δ} {Q : γ → Session → δ → Session → Prop}
    (h : Jointly x x' s s' fun a t b t' => Q (f a) t (f' b) t') :
    Jointly (f <$> x) (f' <$> x') s s' Q := by
  rw [map_eq_pure_bind, map_eq_pure_bind]
  exact jointly_bind (h.imp fun _ _ _ _ hab => jointly_pure.2 hab)

/-- Readings end where they began. -/
theorem jointly_reading {read : Session → Except Stop α} {read' : Session → Except Stop β} :
    Jointly (reading read) (reading read') s s' Q ↔
      ∀ a b, read s = .ok a → read' s' = .ok b → Q a s b s' := by
  constructor
  · exact fun h a b ha hb =>
      h a s b s' (reading_eq_ok_iff.2 ⟨ha, rfl⟩) (reading_eq_ok_iff.2 ⟨hb, rfl⟩)
  · intro h a t b t' ha hb
    obtain ⟨ha, rfl⟩ := reading_eq_ok_iff.1 ha
    obtain ⟨hb, rfl⟩ := reading_eq_ok_iff.1 hb
    exact h a b ha hb

/-- What the sessions agree on is read alike. -/
theorem jointly_reading_of_eq {read : Session → Except Stop α} (h : read s' = read s) :
    Jointly (reading read) (reading read) s s' fun a t b t' =>
      b = a ∧ t = s ∧ t' = s' ∧ read s = .ok a :=
  jointly_reading.2 fun _ _ ha hb => ⟨Except.ok.inj (hb.symm.trans (h.trans ha)), rfl, rfl, ha⟩

/-- **What each element keeps, the list keeps**, and the results are related one by one. -/
theorem jointly_mapM {ε : Type} {f : ε → Synth α} {f' : ε → Synth β} {l : List ε}
    {R : α → β → Prop} {I : Session → Session → Prop} (h0 : I s s')
    (step : ∀ a ∈ l, ∀ t t', I t t' →
      Jointly (f a) (f' a) t t' fun b u b' u' => R b b' ∧ I u u') :
    Jointly (l.mapM f) (l.mapM f') s s' fun bs t bs' t' => List.Forall₂ R bs bs' ∧ I t t' := by
  induction l generalizing s s' with
  | nil => exact jointly_pure.2 ⟨.nil, h0⟩
  | cons a l ih =>
    simp only [List.mapM_cons]
    refine jointly_bind ((step a List.mem_cons_self s s' h0).imp ?_)
    rintro b t b' t' ⟨hb, ht⟩
    refine jointly_bind ((ih ht fun a ha => step a (List.mem_cons_of_mem _ ha)).imp ?_)
    rintro bs u bs' u' ⟨hbs, hu⟩
    exact jointly_pure.2 ⟨.cons hb hbs, hu⟩

/-! ## Single steps that end well -/

theorem onSymbols_eq_ok_iff {change : SymbolTable → Except Stop SymbolTable} {t : Session} :
    onSymbols change s = .ok () t ↔ ∃ symbols, change s.symbols = .ok symbols ∧
      t = { s with symbols } := by
  unfold onSymbols
  cases change s.symbols <;> simp [eq_comm]

theorem openScope_eq_ok_iff {owner : SymbolId} {id : ScopeId} {t : Session} :
    openScope owner s = .ok id t ↔ ∃ symbols, s.symbols.openScope owner = .ok (id, symbols) ∧
      t = { s with symbols } := by
  unfold openScope
  rcases s.symbols.openScope owner with e | ⟨id', symbols⟩ <;> simp [eq_comm]

theorem changeType_eq_ok_iff {ty : TypeId} {f : TypeEntry → TypeEntry} {t : Session} :
    changeType ty f s = .ok () t ↔ ∃ e, s.types.find ty = .ok e ∧
      t = { s with types := ⟨s.types.entries.setIfInBounds ty.index (f e)⟩ } := by
  cases he : s.types.find ty with
  | error x => simp [changeType, onTypes, TypeTable.change, he, bind, Except.bind]
  | ok e => simp [changeType_eq he, eq_comm]

theorem registerType_eq_ok_iff {d : TypeDefinition} {n : Nat} {t : Session} :
    registerType d s = .ok n t ↔ ∃ package, s.package.registerType d = .ok (n, package) ∧
      t = { s with package } := by
  unfold registerType
  rcases s.package.registerType d with e | ⟨n', package⟩ <;> simp [eq_comm]

theorem whilePending_eq_ok_iff {source clone : TypeId} {a : α} {t : Session} :
    whilePending source clone x s = .ok a t ↔
      ∃ u, x { s with pending := s.pending.insert source clone } = .ok a u ∧
        t = { u with pending := u.pending.erase source } := by
  unfold whilePending
  cases x { s with pending := s.pending.insert source clone } <;> simp [eq_comm, and_assoc]

end Synth

/-! ## Unison -/

/-- Two runs that began in `o`, the second in the package `q` instead, have come to `s` and `s'`,
and nothing has come of the difference but names, packages, owners and places. -/
structure Session.Unison (o : Session) (q : Package) (s s' : Session) : Prop where
  /-- The symbols and scopes are alike. -/
  symbols : s.symbols.Alike s'.symbols
  /-- The types are the same. -/
  types : s'.types = s.types
  /-- The same clones are remembered. -/
  memo : s'.memo = s.memo
  /-- The same clones are pending. -/
  pending : s'.pending = s.pending
  /-- Definitions have been appended, and they are alike. -/
  definitions : ∃ ds ds', s.package.typeDefinitions = o.package.typeDefinitions ++ ds ∧
    s'.package.typeDefinitions = q.typeDefinitions ++ ds' ∧
    List.Forall₂ TypeDefinition.Alike ds ds'
  /-- The symbols that were there are as they were, in one run. -/
  symbols_kept : Grows o.symbols.symbols s.symbols.symbols
  /-- And in the other. -/
  symbols_kept' : Grows o.symbols.symbols s'.symbols.symbols
  /-- The types that were there are as they were. -/
  types_kept : o.types.Grows s.types
  /-- All structures that were added are readonly. -/
  readonly : ∀ ty e, s.types.find ty = .ok e → o.types.entries.size ≤ ty.index →
    e.ty.fields?.isSome → e.flags.contains (.only .readonly)

namespace Session.Unison

open Synth

variable {o s s' : Session} {q : Package}

/-- At the beginning there is no difference but the package. -/
theorem start (o : Session) (q : Package) : o.Unison q o { o with package := q } where
  symbols := .refl _
  types := rfl
  memo := rfl
  pending := rfl
  definitions := ⟨[], [], (List.append_nil _).symm, (List.append_nil _).symm, .nil⟩
  symbols_kept := .refl _
  symbols_kept' := .refl _
  types_kept := Grows.refl _
  readonly _ _ he hle := absurd (TypeTable.lt_of_find he) (Nat.not_lt_of_le hle)

variable (h : o.Unison q s s')
include h

/-! ## Reading -/

/-- The symbols that were there are the same in both runs. -/
theorem find_eq {x : SymbolId} (hx : x.index < o.symbols.symbols.size) {a b : Symbol}
    (ha : s.symbols.find x = .ok a) (hb : s'.symbols.find x = .ok b) : b = a := by
  rw [SymbolTable.find_eq_ok_iff] at ha hb
  rw [h.symbols_kept.getElem?_eq hx] at ha
  rw [h.symbols_kept'.getElem?_eq hx] at hb
  exact Option.some.inj (hb.symm.trans ha)

theorem entry (ty : TypeId) : Jointly (Synth.entry ty) (Synth.entry ty) s s' fun e t e' t' =>
    e' = e ∧ t = s ∧ t' = s' ∧ s.types.find ty = .ok e :=
  jointly_reading_of_eq (by rw [h.types])

theorem symbol (x : SymbolId) : Jointly (Synth.symbol x) (Synth.symbol x) s s' fun a t b t' =>
    a.Alike b ∧ t = s ∧ t' = s' ∧ s.symbols.find x = .ok a :=
  jointly_reading.2 fun _ _ ha hb => ⟨h.symbols.find ha hb, rfl, rfl, ha⟩

theorem symbolOf (ty : TypeId) :
    Jointly (Synth.symbolOf ty) (Synth.symbolOf ty) s s' fun x t x' t' =>
      x' = x ∧ t = s ∧ t' = s' := by
  refine jointly_bind ((h.entry ty).imp ?_)
  rintro _ t e t' ⟨rfl, rfl, rfl, -⟩
  cases e.symbol with
  | none => exact jointly_stop
  | some x => exact jointly_pure.2 ⟨rfl, rfl, rfl⟩

theorem kindOf (ty : TypeId) :
    Jointly (Synth.kindOf ty) (Synth.kindOf ty) s s' fun kind t kind' t' =>
      kind' = kind ∧ t = s ∧ t' = s' := by
  refine jointly_bind ((h.entry ty).imp ?_)
  rintro _ t e t' ⟨rfl, rfl, rfl, -⟩
  cases e.ty.structureKind? with
  | none => exact jointly_stop
  | some kind => exact jointly_pure.2 ⟨rfl, rfl, rfl⟩

theorem fieldsOf (ty : TypeId) :
    Jointly (Synth.fieldsOf ty) (Synth.fieldsOf ty) s s' fun fields t fields' t' =>
      fields' = fields ∧ t = s ∧ t' = s' ∧
        ∃ e, s.types.find ty = .ok e ∧ e.ty.fields? = some fields := by
  refine jointly_bind ((h.entry ty).imp ?_)
  rintro _ t e t' ⟨rfl, rfl, rfl, he⟩
  cases hfields : e.ty.fields? with
  | none => exact jointly_stop
  | some fields => exact jointly_pure.2 ⟨rfl, rfl, rfl, e, he, hfields⟩

/-! ## Writing -/

theorem addSymbol {k k' : SymbolKind} {d d' : Declaration}
    (hd : Symbol.Alike { d with id := ⟨s.symbols.symbols.size⟩, kind := k }
      { d' with id := ⟨s.symbols.symbols.size⟩, kind := k' }) :
    Jointly (Synth.addSymbol k d) (Synth.addSymbol k' d') s s' fun x t x' t' =>
      x' = x ∧ o.symbols.symbols.size ≤ x.index ∧ o.Unison q t t' := by
  rintro _ _ _ _ ⟨⟩ ⟨⟩
  obtain ⟨hx, hsymbols⟩ := h.symbols.add hd
  exact ⟨hx, h.symbols_kept.size_le,
    { h with
      symbols := hsymbols
      symbols_kept := h.symbols_kept.trans (.push _ _)
      symbols_kept' := h.symbols_kept'.trans (.push _ _) }⟩

/-- Symbols that were added can be changed. -/
theorem changeSymbol {x : SymbolId} (hx : o.symbols.symbols.size ≤ x.index) {f f' : Symbol → Symbol}
    (hf : ∀ a b, a.Alike b → (f a).Alike (f' b)) :
    Jointly (Synth.changeSymbol x f) (Synth.changeSymbol x f') s s' fun _ t _ t' =>
      o.Unison q t t' := by
  intro _ t _ t' hr hr'
  obtain ⟨U, hU, rfl⟩ := onSymbols_eq_ok_iff.1 hr
  obtain ⟨U', hU', rfl⟩ := onSymbols_eq_ok_iff.1 hr'
  obtain ⟨a, -, rfl⟩ := SymbolTable.change_eq_ok hU
  obtain ⟨b, -, rfl⟩ := SymbolTable.change_eq_ok hU'
  exact
    { h with
      symbols := h.symbols.change hf hU hU'
      symbols_kept := h.symbols_kept.setIfInBounds hx _
      symbols_kept' := h.symbols_kept'.setIfInBounds hx _ }

/-- Symbols that were added can get new scopes. -/
theorem openScope {x : SymbolId} (hx : o.symbols.symbols.size ≤ x.index) :
    Jointly (Synth.openScope x) (Synth.openScope x) s s' fun id t id' t' =>
      id' = id ∧ o.Unison q t t' := by
  intro id t id' t' hr hr'
  obtain ⟨U, hU, rfl⟩ := openScope_eq_ok_iff.1 hr
  obtain ⟨U', hU', rfl⟩ := openScope_eq_ok_iff.1 hr'
  obtain ⟨hid, hsymbols⟩ := h.symbols.openScope hU hU'
  obtain ⟨a, -, -, rfl⟩ := SymbolTable.exists_find_of_openScope hU
  obtain ⟨b, -, -, rfl⟩ := SymbolTable.exists_find_of_openScope hU'
  exact ⟨hid,
    { h with
      symbols := hsymbols
      symbols_kept := h.symbols_kept.setIfInBounds hx _
      symbols_kept' := h.symbols_kept'.setIfInBounds hx _ }⟩

/-- **Names are bound to the same symbols**, whichever names these are. -/
theorem define (owner x : SymbolId) (name name' : String) :
    Jointly (Synth.define owner name x) (Synth.define owner name' x) s s' fun _ t _ t' =>
      o.Unison q t t' := by
  intro _ t _ t' hr hr'
  obtain ⟨U, hU, rfl⟩ := onSymbols_eq_ok_iff.1 hr
  obtain ⟨U', hU', rfl⟩ := onSymbols_eq_ok_iff.1 hr'
  have hsymbols := h.symbols.defineIn hU hU'
  obtain ⟨_, -, hU⟩ := SymbolTable.defineIn_eq_ok hU
  obtain ⟨_, -, hU'⟩ := SymbolTable.defineIn_eq_ok hU'
  obtain ⟨_, _, -, -, rfl⟩ := SymbolTable.define_eq_ok hU
  obtain ⟨_, _, -, -, rfl⟩ := SymbolTable.define_eq_ok hU'
  exact { h with symbols := hsymbols }

/-- A type that is added is readonly, or no structure. -/
theorem addType {e : TypeEntry} (he : e.ty.fields?.isSome → e.flags.contains (.only .readonly)) :
    Jointly (Synth.addType e) (Synth.addType e) s s' fun ty t ty' t' =>
      ty' = ty ∧ o.types.entries.size ≤ ty.index ∧ o.Unison q t t' := by
  rintro _ _ _ _ ⟨⟩ ⟨⟩
  refine ⟨?_, h.types_kept.size_le,
    { h with types := ?_, types_kept := Grows.trans h.types_kept (.push _ _), readonly := ?_ }⟩
  · rw [h.types]
  · rw [h.types]
  · intro ty e' he' hle hfields
    rw [TypeTable.find_eq_ok_iff] at he'
    rw [Array.getElem?_push] at he'
    split at he'
    · cases he'
      exact he hfields
    · exact h.readonly ty e' (TypeTable.find_eq_ok_iff.2 he') hle hfields

/-- Types that were added can be changed, if they stay what they are. -/
theorem changeType {ty : TypeId} (hty : o.types.entries.size ≤ ty.index) {f : TypeEntry → TypeEntry}
    (hf : ∀ e, (f e).flags = e.flags ∧ ((f e).ty.fields?.isSome → e.ty.fields?.isSome)) :
    Jointly (Synth.changeType ty f) (Synth.changeType ty f) s s' fun _ t _ t' =>
      o.Unison q t t' := by
  intro _ t _ t' hr hr'
  obtain ⟨e, he, rfl⟩ := changeType_eq_ok_iff.1 hr
  obtain ⟨e', he', rfl⟩ := changeType_eq_ok_iff.1 hr'
  rw [h.types] at he'
  obtain rfl := Except.ok.inj (he.symm.trans he')
  refine { h with types := ?_, types_kept := h.types_kept.setIfInBounds hty _, readonly := ?_ }
  · rw [h.types]
  · intro ty' d hd hle hfields
    by_cases hne : ty' = ty
    · subst hne
      rw [TypeTable.find_set_self he] at hd
      cases hd
      rw [(hf e).1]
      exact h.readonly ty' e he hle ((hf e).2 hfields)
    · have hi : ty.index ≠ ty'.index := fun hi => hne (congrArg TypeId.mk hi.symm)
      rw [TypeTable.find_eq_ok_iff, Array.getElem?_setIfInBounds_ne hi] at hd
      exact h.readonly ty' d (TypeTable.find_eq_ok_iff.2 hd) hle hfields

theorem remember (ty v : TypeId) :
    Jointly (Synth.remember ty v) (Synth.remember ty v) s s' fun _ t _ t' => o.Unison q t t' := by
  rintro _ _ _ _ ⟨⟩ ⟨⟩
  exact { h with memo := congrArg (·.insert ty v) h.memo }

theorem registerType {d d' : TypeDefinition} (hd : d.Alike d') :
    Jointly (Synth.registerType d) (Synth.registerType d') s s' fun _ t _ t' =>
      o.Unison q t t' := by
  intro n t n' t' hr hr'
  obtain ⟨package, hpackage, rfl⟩ := registerType_eq_ok_iff.1 hr
  obtain ⟨package', hpackage', rfl⟩ := registerType_eq_ok_iff.1 hr'
  obtain ⟨-, -, rfl⟩ := Package.registerType_eq_ok_iff.1 hpackage
  obtain ⟨-, -, rfl⟩ := Package.registerType_eq_ok_iff.1 hpackage'
  obtain ⟨ds, ds', hds, hds', halike⟩ := h.definitions
  refine { h with definitions := ⟨ds ++ [d], ds' ++ [d'], ?_, ?_, ?_⟩ }
  · rw [hds, List.append_assoc]
  · rw [hds', List.append_assoc]
  · exact List.rel_append halike (.cons hd .nil)

/-- A clone is pending in both runs while both go on. -/
theorem whilePending {α : Type} {x x' : Synth α} {R : α → α → Prop} (source clone : TypeId)
    (hx : ∀ t t', o.Unison q t t' → Jointly x x' t t' fun a u b u' => R a b ∧ o.Unison q u u') :
    Jointly (Synth.whilePending source clone x) (Synth.whilePending source clone x') s s'
      fun a t b t' => R a b ∧ o.Unison q t t' := by
  intro a t b t' ha hb
  obtain ⟨u, hu, rfl⟩ := whilePending_eq_ok_iff.1 ha
  obtain ⟨u', hu', rfl⟩ := whilePending_eq_ok_iff.1 hb
  have hpending : o.Unison q { s with pending := s.pending.insert source clone }
      { s' with pending := s'.pending.insert source clone } :=
    { h with pending := congrArg (·.insert source clone) h.pending }
  obtain ⟨hab, hunison⟩ := hx _ _ hpending a u b u' hu hu'
  exact ⟨hab, { hunison with pending := congrArg (·.erase source) hunison.pending }⟩

end Session.Unison

end StructuralTypes
