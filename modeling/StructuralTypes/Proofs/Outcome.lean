import StructuralTypes.Proofs.Ending
import StructuralTypes.Proofs.Growth

/-!
# How the steps of a synthesis end

What becomes of the single steps that a synthesis is made of: the writing of symbols, scopes, types
and definitions, and the reading of what an operation relies on. Where a step finds what it needs,
it is said what it does (`changeType_eq`, `define_eq`).

Results:
* `ends_addSymbol`, `ends_openScope`, `ends_whilePending`: the rules for steps that write.
* `define_eq`, `define_taken`: a name is bound unless it is bound already.
* `symbolOf_eq`, `kindOf_eq`, `fieldsOf_eq`: the rules for steps that read.
-/

namespace StructuralTypes

namespace Synth

variable {α : Type} {x : Synth α} {s : Session} {Q : α → Session → Prop} {E : Stop → Session → Prop}

theorem ends_addSymbol {kind : SymbolKind} {d : Declaration} {Q : SymbolId → Session → Prop} :
    Ends (addSymbol kind d) s Q E ↔
      Q (s.symbols.add kind d).1 { s with symbols := (s.symbols.add kind d).2 } := Iff.rfl

theorem ends_addType {entry : TypeEntry} {Q : TypeId → Session → Prop} :
    Ends (addType entry) s Q E ↔
      Q (s.types.add entry).1 { s with types := (s.types.add entry).2 } := Iff.rfl

theorem ends_onSymbols {change : SymbolTable → Except Stop SymbolTable}
    {Q : Unit → Session → Prop} :
    Ends (onSymbols change) s Q E ↔
      (∀ symbols, change s.symbols = .ok symbols → Q () { s with symbols }) ∧
        ∀ e, change s.symbols = .error e → E e s := by
  unfold Ends onSymbols
  cases change s.symbols <;> simp

theorem ends_onTypes {change : TypeTable → Except Stop TypeTable} {Q : Unit → Session → Prop} :
    Ends (onTypes change) s Q E ↔
      (∀ types, change s.types = .ok types → Q () { s with types }) ∧
        ∀ e, change s.types = .error e → E e s := by
  unfold Ends onTypes
  cases change s.types <;> simp

theorem ends_registerType {d : TypeDefinition} {Q : Nat → Session → Prop} :
    Ends (registerType d) s Q E ↔
      (∀ n package, s.package.registerType d = .ok (n, package) → Q n { s with package }) ∧
        ∀ e, s.package.registerType d = .error e → E e s := by
  unfold Ends registerType
  rcases s.package.registerType d with e | ⟨n, package⟩ <;> simp

theorem ends_registerClass {d : ClassDefinition} {Q : Nat → Session → Prop} :
    Ends (registerClass d) s Q E ↔
      (∀ n package, s.package.registerClass d = .ok (n, package) → Q n { s with package }) ∧
        ∀ e, s.package.registerClass d = .error e → E e s := by
  unfold Ends registerClass
  rcases s.package.registerClass d with e | ⟨n, package⟩ <;> simp

/-- A mark goes away however the operation ends. -/
theorem ends_whilePending {source clone : TypeId} :
    Ends (whilePending source clone x) s Q E ↔
      Ends x { s with pending := s.pending.insert source clone }
        (fun a t => Q a { t with pending := t.pending.erase source })
        fun e t => E e { t with pending := t.pending.erase source } := by
  unfold Ends whilePending
  cases x { s with pending := s.pending.insert source clone } <;> rfl

/-! ## Symbols and scopes -/

theorem openScope_eq {x : SymbolId} {named : Symbol} (h : s.symbols.find x = .ok named) :
    openScope x s = .ok ⟨s.symbols.scopes.size⟩
      { s with symbols :=
        { symbols := s.symbols.symbols.setIfInBounds x.index
            { named with scope := some ⟨s.symbols.scopes.size⟩ }
          scopes := s.symbols.scopes.push { id := ⟨s.symbols.scopes.size⟩, owner := x } } } := by
  unfold openScope
  rw [SymbolTable.openScope_of_find h]

theorem ends_openScope {x : SymbolId} {Q : ScopeId → Session → Prop} :
    Ends (openScope x) s Q E ↔
      (∀ id symbols, s.symbols.openScope x = .ok (id, symbols) → Q id { s with symbols }) ∧
        ∀ e, s.symbols.openScope x = .error e → E e s := by
  unfold Ends openScope
  rcases s.symbols.openScope x with e | ⟨id, symbols⟩ <;> simp

theorem symbol_eq {x : SymbolId} {named : Symbol} (h : s.symbols.find x = .ok named) :
    symbol x s = .ok named s :=
  reading_eq_ok_iff.2 ⟨h, rfl⟩

/-- A symbol is read, unless its handle is out of range. -/
theorem ends_symbol {x : SymbolId} {Q : Symbol → Session → Prop} :
    Ends (symbol x) s Q E ↔ (∀ named, s.symbols.find x = .ok named → Q named s) ∧
      (s.symbols.symbols.size ≤ x.index → E .dangling s) := by
  unfold symbol
  rw [ends_reading]
  refine and_congr_right fun _ => ⟨fun h hx => h _ ?_, fun h e he => ?_⟩
  · simp [SymbolTable.find, hx]
  · unfold SymbolTable.find at he
    split at he
    · cases he
    · rename_i hnone
      cases he
      exact h (Array.getElem?_eq_none_iff.1 hnone)

theorem typeOf_eq {x : SymbolId} {named : Symbol} {ty : TypeId}
    (h : s.symbols.find x = .ok named) (hty : named.ty = some ty) : typeOf x s = .ok ty s :=
  bind_eq_ok_iff.2 ⟨named, s, symbol_eq h, by rw [hty]; rfl⟩

theorem changeSymbol_eq {x : SymbolId} {named : Symbol} (h : s.symbols.find x = .ok named)
    (f : Symbol → Symbol) :
    changeSymbol x f s = .ok () { s with symbols :=
      { s.symbols with symbols := s.symbols.symbols.setIfInBounds x.index (f named) } } := by
  simp only [changeSymbol, onSymbols, SymbolTable.change_of_find h]

/-- What the symbol of a named type links to is changed. -/
theorem changeTypeLinks_eq {x : SymbolId} {named : Symbol} {info : TypeLinks}
    (h : s.symbols.find x = .ok named) (hkind : named.kind = .type info) (role : SymbolRole)
    (f : TypeLinks → TypeLinks) :
    changeTypeLinks x role f s = .ok () { s with symbols :=
      { s.symbols with symbols :=
        s.symbols.symbols.setIfInBounds x.index { named with kind := .type (f info) } } } := by
  unfold changeTypeLinks
  rw [bind_of_ok (symbol_eq h), Symbol.typeLinks?_eq_some_iff.2 hkind]
  dsimp only
  rw [changeSymbol_eq h, Symbol.mapTypeLinks, hkind]

/-- No other symbol links to anything. -/
theorem changeTypeLinks_eq_error {x : SymbolId} {named : Symbol} (h : s.symbols.find x = .ok named)
    (hnone : named.typeLinks? = none) (role : SymbolRole) (f : TypeLinks → TypeLinks) :
    changeTypeLinks x role f s = .error (Fault.wrongSymbol x role) s := by
  unfold changeTypeLinks
  rw [bind_of_ok (symbol_eq h), hnone]
  rfl

section Define

variable {owner x : SymbolId} {named : Symbol} {id : ScopeId} {scope : Scope} {name : String}

/-- Binding a name is done in the scope of the owner. -/
theorem define_eq_of_scope (hfind : s.symbols.find owner = .ok named)
    (hid : named.scope = some id) (hscope : s.symbols.findScope id = .ok scope) :
    define owner name x s =
      match scope.define name x with
      | .ok extended => .ok () { s with symbols :=
          { s.symbols with scopes := s.symbols.scopes.setIfInBounds id.index extended } }
      | .error e => .error e s := by
  unfold define onSymbols
  cases hd : scope.define name x <;>
    simp [SymbolTable.defineIn, SymbolTable.scopeOf, hfind, hid, SymbolTable.define, hscope, hd,
      bind, Except.bind, pure, Except.pure]

/-- A new name is bound. -/
theorem define_eq (hfind : s.symbols.find owner = .ok named) (hid : named.scope = some id)
    (hscope : s.symbols.findScope id = .ok scope) (hnew : name ∉ scope.bindings.keys) :
    define owner name x s = .ok () { s with symbols :=
      { s.symbols with
        scopes := s.symbols.scopes.setIfInBounds id.index
          { scope with bindings := scope.bindings.insert name x } } } := by
  rw [define_eq_of_scope hfind hid hscope, Scope.define_eq_ok_iff.2 ⟨hnew, rfl⟩]

/-- A name that is bound already is reported, with what it is bound to. -/
theorem define_eq_nameTaken {existing : SymbolId} (hfind : s.symbols.find owner = .ok named)
    (hid : named.scope = some id) (hscope : s.symbols.findScope id = .ok scope)
    (htaken : (name, existing) ∈ scope.bindings.entries) :
    define owner name x s = .error (Fault.nameTaken name scope.owner existing) s := by
  rw [define_eq_of_scope hfind hid hscope, Scope.define_eq_error_iff.2 ⟨existing, htaken, rfl⟩]

theorem define_taken (hfind : s.symbols.find owner = .ok named) (hid : named.scope = some id)
    (hscope : s.symbols.findScope id = .ok scope) (htaken : name ∈ scope.bindings.keys) :
    ∃ existing, define owner name x s = .error (Fault.nameTaken name scope.owner existing) s := by
  obtain ⟨⟨_, existing⟩, hmem, rfl⟩ := List.mem_map.1 htaken
  exact ⟨existing, define_eq_nameTaken hfind hid hscope hmem⟩

end Define

/-! ## Types -/

theorem changeType_eq {ty : TypeId} {entry : TypeEntry} (h : s.types.find ty = .ok entry)
    (f : TypeEntry → TypeEntry) :
    changeType ty f s =
      .ok () { s with types := ⟨s.types.entries.setIfInBounds ty.index (f entry)⟩ } := by
  simp only [changeType, onTypes, TypeTable.change_of_find h]

/-- Reading a type does not go on for ever. -/
theorem find_ne_unending (T : TypeTable) (ty : TypeId) : T.find ty ≠ .error .unending := by
  unfold TypeTable.find
  split <;> simp

theorem impliedWithin_ne_unending (T : TypeTable) (fuel : Nat) (ty : TypeId) :
    T.impliedWithin fuel ty ≠ .error .unending := by
  induction fuel generalizing ty with
  | zero => simp [TypeTable.impliedWithin]
  | succ fuel ih =>
    rw [TypeTable.impliedWithin]
    cases hf : T.find ty with
    | error e =>
      have hne := find_ne_unending T ty
      rw [hf] at hne
      simpa [bind, Except.bind] using hne
    | ok e =>
      simp only [bind, Except.bind]
      split
      · exact ih _
      · simp [pure, Except.pure]

theorem isReadonly_ne_unending (T : TypeTable) (ty : TypeId) :
    T.isReadonly ty ≠ .error .unending := by
  have hne := find_ne_unending T ty
  unfold TypeTable.isReadonly
  cases hf : T.find ty with
  | error e =>
    rw [hf] at hne
    simpa [Bind.bind, Except.bind] using hne
  | ok e => simp [Bind.bind, Except.bind, Pure.pure, Except.pure]

theorem entry_eq {ty : TypeId} {e : TypeEntry} (h : s.types.find ty = .ok e) :
    entry ty s = .ok e s :=
  reading_eq_ok_iff.2 ⟨h, rfl⟩

theorem symbolOf_eq {ty : TypeId} {e : TypeEntry} {x : SymbolId} (h : s.types.find ty = .ok e)
    (hx : e.symbol = some x) : symbolOf ty s = .ok x s :=
  bind_eq_ok_iff.2 ⟨e, s, entry_eq h, by rw [hx]; rfl⟩

theorem symbolOf_eq_error {ty : TypeId} {e : TypeEntry} (h : s.types.find ty = .ok e)
    (hx : e.symbol = none) : symbolOf ty s = .error (Fault.symbolMissing ty) s :=
  bind_eq_error_iff.2 (.inr ⟨e, s, entry_eq h, by rw [hx]; rfl⟩)

theorem kindOf_eq {ty : TypeId} {e : TypeEntry} {kind : StructureKind}
    (h : s.types.find ty = .ok e) (hk : e.ty.structureKind? = some kind) :
    kindOf ty s = .ok kind s :=
  bind_eq_ok_iff.2 ⟨e, s, entry_eq h, by rw [hk]; rfl⟩

theorem fieldsOf_eq {ty : TypeId} {e : TypeEntry} {fields : FieldMap}
    (h : s.types.find ty = .ok e) (hf : e.ty.fields? = some fields) :
    fieldsOf ty s = .ok fields s :=
  bind_eq_ok_iff.2 ⟨e, s, entry_eq h, by rw [hf]; rfl⟩

theorem requireRecord_eq {ty : TypeId} {e : TypeEntry} {r : RecordType}
    (h : s.types.find ty = .ok e) (hr : e.ty = .record r) : requireRecord ty s = .ok () s :=
  bind_eq_ok_iff.2 ⟨e, s, entry_eq h, by rw [hr]; rfl⟩

theorem requireRecord_eq_error {ty : TypeId} {e : TypeEntry} (h : s.types.find ty = .ok e)
    (hr : ∀ r, e.ty ≠ .record r) : requireRecord ty s = .error (Fault.wrongType ty .record) s := by
  unfold requireRecord
  rw [bind_of_ok (entry_eq h)]
  cases hty : e.ty with
  | record r => exact absurd hty (hr r)
  | _ => rfl

end Synth

end StructuralTypes
