import StructuralTypes.Synthesis.Session

/-!
# Tables that only grow

`Grows a b` says that the array `b` is `a` with elements added at its end, and `Session.Extends s t`
that the session `t` keeps all that `s` has: its symbols, scopes, types, definitions and remembered
variants. Most steps of a synthesis only add. Those that change something in place change what was
added after an earlier session `s₀`, and so they still leave an extension of `s₀`.

Results:
* `Grows.push`, `Grows.setIfInBounds`: additions, and changes behind the old end.
* `Session.Extends.refl`, `Session.Extends.trans`: extending is a preorder.
* `Session.Extends.find_type`, `Session.Extends.find_symbol`: what was there reads back as it was.
-/

namespace StructuralTypes

/-- An array is another one with elements added at its end. -/
def Grows {α : Type} (a b : Array α) : Prop := a.toList <+: b.toList

namespace Grows

variable {α : Type} {a b c : Array α}

theorem refl (a : Array α) : Grows a a := List.prefix_rfl

theorem trans (h : Grows a b) (h' : Grows b c) : Grows a c := List.IsPrefix.trans h h'

theorem push (a : Array α) (x : α) : Grows a (a.push x) := by
  unfold Grows
  rw [Array.toList_push]
  exact List.prefix_append _ _

theorem size_le (h : Grows a b) : a.size ≤ b.size := h.length_le

theorem getElem? (h : Grows a b) {i : Nat} {x : α} (hx : a[i]? = some x) : b[i]? = some x := by
  rw [← Array.getElem?_toList] at hx ⊢
  exact List.prefix_iff_getElem?.1 h i (List.getElem?_eq_some_iff.1 hx).1 |>.trans
    ((List.getElem?_eq_getElem (List.getElem?_eq_some_iff.1 hx).1).symm.trans hx)

/-- A change behind the old end changes nothing of what was there. -/
theorem setIfInBounds (h : Grows a b) {i : Nat} (hi : a.size ≤ i) (x : α) :
    Grows a (b.setIfInBounds i x) := by
  obtain ⟨l, hl⟩ := h
  refine ⟨l.set (i - a.size) x, ?_⟩
  rw [Array.toList_setIfInBounds, ← hl, List.set_append_right _ _ (by simpa using hi)]
  simp

theorem getElem?_eq (h : Grows a b) {i : Nat} (hi : i < a.size) : b[i]? = a[i]? := by
  rw [h.getElem? (Array.getElem?_eq_getElem hi), Array.getElem?_eq_getElem hi]

/-- Changing the element that was just added is adding another one. -/
theorem setIfInBounds_push (a : Array α) (x y : α) :
    (a.push x).setIfInBounds a.size y = a.push y := by
  apply Array.ext'
  rw [Array.toList_setIfInBounds, Array.toList_push, Array.toList_push, ← Array.length_toList,
    List.set_append_right _ _ (Nat.le_refl _)]
  simp

/-- Changing an element and adding another one after it can be done in any order. -/
theorem setIfInBounds_push_of_lt {i : Nat} (hi : i < a.size) (x y : α) :
    (a.push x).setIfInBounds i y = (a.setIfInBounds i y).push x := by
  apply Array.ext'
  rw [Array.toList_setIfInBounds, Array.toList_push, Array.toList_push, Array.toList_setIfInBounds,
    List.set_append_left _ _ (by simpa using hi)]

end Grows

/-! ## Symbol tables -/

namespace SymbolTable

variable {t t' u : SymbolTable}

theorem grows_add (t : SymbolTable) (kind : SymbolKind) (d : Declaration) :
    Grows t.symbols (t.add kind d).2.symbols := .push _ _

/-- A symbol stays where it is when others are added. -/
theorem find_mono (h : Grows t.symbols u.symbols) {s : SymbolId} {symbol : Symbol}
    (hf : t.find s = .ok symbol) : u.find s = .ok symbol := by
  rw [find_eq_ok_iff] at hf ⊢
  exact h.getElem? hf

/-- So does a scope. -/
theorem findScope_mono (h : Grows t.scopes u.scopes) {id : ScopeId} {scope : Scope}
    (hf : t.findScope id = .ok scope) : u.findScope id = .ok scope := by
  rw [findScope_eq_ok_iff] at hf ⊢
  exact h.getElem? hf

theorem find_eq_error {s : SymbolId} {e : Stop} (h : t.find s = .error e) : e = .dangling := by
  unfold find at h
  split at h
  · cases h
  · exact (Except.error.inj h).symm

theorem exists_find {s : SymbolId} (h : s.index < t.symbols.size) :
    ∃ symbol, t.find s = .ok symbol :=
  ⟨t.symbols[s.index], find_eq_ok_iff.2 (Array.getElem?_eq_getElem h)⟩

theorem change_of_find {s : SymbolId} {symbol : Symbol} (h : t.find s = .ok symbol)
    (f : Symbol → Symbol) :
    t.change s f = .ok { t with symbols := t.symbols.setIfInBounds s.index (f symbol) } := by
  simp [change, h, bind, Except.bind, pure, Except.pure]

theorem change_eq_ok {s : SymbolId} {f : Symbol → Symbol} (h : t.change s f = .ok t') :
    ∃ symbol, t.find s = .ok symbol ∧
      t' = { t with symbols := t.symbols.setIfInBounds s.index (f symbol) } := by
  cases hf : t.find s with
  | error e => simp [change, hf, bind, Except.bind] at h
  | ok symbol => exact ⟨symbol, rfl, (Except.ok.inj ((change_of_find hf f).symm.trans h)).symm⟩

theorem scopeOf_eq_ok_iff {s : SymbolId} {id : ScopeId} :
    t.scopeOf s = .ok id ↔ ∃ symbol, t.find s = .ok symbol ∧ symbol.scope = some id := by
  unfold scopeOf
  cases t.find s with
  | error e => simp [bind, Except.bind]
  | ok symbol => cases hid : symbol.scope <;> simp [bind, Except.bind, hid]

/-- A name is bound in the current scope of a symbol. -/
theorem defineIn_eq_ok {owner s : SymbolId} {name : String} (h : t.defineIn owner name s = .ok t') :
    ∃ id, t.scopeOf owner = .ok id ∧ t.define id name s = .ok t' := by
  cases hid : t.scopeOf owner with
  | error e => simp [defineIn, hid, bind, Except.bind] at h
  | ok id =>
    refine ⟨id, rfl, ?_⟩
    simpa [defineIn, hid, bind, Except.bind] using h

/-- Giving a symbol a new scope changes the symbol and adds the scope. -/
theorem openScope_of_find {s : SymbolId} {symbol : Symbol} (h : t.find s = .ok symbol) :
    t.openScope s = .ok (⟨t.scopes.size⟩,
      { symbols := t.symbols.setIfInBounds s.index { symbol with scope := some ⟨t.scopes.size⟩ }
        scopes := t.scopes.push { id := ⟨t.scopes.size⟩, owner := s } }) := by
  simp [openScope, change_of_find h, bind, Except.bind, pure, Except.pure]

theorem find_set_self {s : SymbolId} {symbol : Symbol} (h : t.find s = .ok symbol)
    (symbol' : Symbol) :
    ({ t with symbols := t.symbols.setIfInBounds s.index symbol' } : SymbolTable).find s =
      .ok symbol' := by
  rw [find_eq_ok_iff] at h ⊢
  rw [Array.getElem?_setIfInBounds_self_of_lt (Array.getElem?_eq_some_iff.1 h).1]

theorem findScope_set_self {id : ScopeId} {scope : Scope} (h : t.findScope id = .ok scope)
    (scope' : Scope) :
    ({ t with scopes := t.scopes.setIfInBounds id.index scope' } : SymbolTable).findScope id =
      .ok scope' := by
  rw [findScope_eq_ok_iff] at h ⊢
  rw [Array.getElem?_setIfInBounds_self_of_lt (Array.getElem?_eq_some_iff.1 h).1]

end SymbolTable

/-! ## Type tables -/

namespace TypeTable

variable {t u : TypeTable} {ty : TypeId} {entry : TypeEntry}

/-- The type table `u` is `t` with types added at its end. -/
abbrev Grows (t u : TypeTable) : Prop := StructuralTypes.Grows t.entries u.entries

theorem Grows.find (h : t.Grows u) (hf : t.find ty = .ok entry) : u.find ty = .ok entry := by
  rw [find_eq_ok_iff] at hf ⊢
  exact h.getElem? hf

theorem lt_of_find (hf : t.find ty = .ok entry) : ty.index < t.entries.size :=
  (Array.getElem?_eq_some_iff.1 (find_eq_ok_iff.1 hf)).1

theorem exists_find (h : ty.index < t.entries.size) : ∃ entry, t.find ty = .ok entry :=
  ⟨t.entries[ty.index], find_eq_ok_iff.2 (Array.getElem?_eq_getElem h)⟩

theorem find_eq_error {e : Stop} (h : t.find ty = .error e) : e = .dangling := by
  unfold find at h
  split at h
  · cases h
  · exact (Except.error.inj h).symm

theorem change_of_find (h : t.find ty = .ok entry) (f : TypeEntry → TypeEntry) :
    t.change ty f = .ok ⟨t.entries.setIfInBounds ty.index (f entry)⟩ := by
  simp [change, h, bind, Except.bind, pure, Except.pure]

theorem find_set_self (hf : t.find ty = .ok entry) (entry' : TypeEntry) :
    (TypeTable.mk (t.entries.setIfInBounds ty.index entry')).find ty = .ok entry' := by
  rw [find_eq_ok_iff, Array.getElem?_setIfInBounds_self_of_lt (lt_of_find hf)]

theorem find_set_of_ne {ty' : TypeId} (hne : ty ≠ ty') (entry' : TypeEntry)
    (hf : t.find ty = .ok entry) :
    (TypeTable.mk (t.entries.setIfInBounds ty'.index entry')).find ty = .ok entry := by
  have hi : ty'.index ≠ ty.index := fun h => hne (congrArg TypeId.mk h.symm)
  rw [find_eq_ok_iff] at hf ⊢
  rw [Array.getElem?_setIfInBounds_ne hi, hf]

end TypeTable

/-! ## Sessions -/

/-- The session `t` has all that `s` has, and as `s` has it. -/
structure Session.Extends (s t : Session) : Prop where
  /-- Symbols are only added. -/
  symbols : Grows s.symbols.symbols t.symbols.symbols
  /-- Scopes are only added, and none of the old ones gets a binding. -/
  scopes : Grows s.symbols.scopes t.symbols.scopes
  /-- Types are only added. -/
  types : s.types.Grows t.types
  /-- Type definitions are only added. -/
  definitions : s.package.typeDefinitions <+: t.package.typeDefinitions
  /-- Nothing else of the package changes. -/
  package : t.package = { s.package with typeDefinitions := t.package.typeDefinitions }
  /-- What is remembered stays remembered. -/
  memo : ∀ ty variant, s.memo.get? ty = some variant → t.memo.get? ty = some variant

namespace Session.Extends

variable {s t u : Session}

theorem refl (s : Session) : s.Extends s where
  symbols := .refl _
  scopes := .refl _
  types := Grows.refl _
  definitions := List.prefix_rfl
  package := rfl
  memo := fun _ _ h => h

theorem trans (h : s.Extends t) (h' : t.Extends u) : s.Extends u where
  symbols := h.symbols.trans h'.symbols
  scopes := h.scopes.trans h'.scopes
  types := StructuralTypes.Grows.trans h.types h'.types
  definitions := h.definitions.trans h'.definitions
  package := by rw [h'.package, h.package]
  memo := fun ty v hv => h'.memo ty v (h.memo ty v hv)

theorem find_type (h : s.Extends t) {ty : TypeId} {entry : TypeEntry}
    (hf : s.types.find ty = .ok entry) : t.types.find ty = .ok entry :=
  h.types.find hf

theorem find_symbol (h : s.Extends t) {x : SymbolId} {symbol : Symbol}
    (hf : s.symbols.find x = .ok symbol) : t.symbols.find x = .ok symbol :=
  SymbolTable.find_mono h.symbols hf

theorem find_scope (h : s.Extends t) {x : ScopeId} {scope : Scope}
    (hf : s.symbols.findScope x = .ok scope) : t.symbols.findScope x = .ok scope :=
  SymbolTable.findScope_mono h.scopes hf

end Session.Extends

end StructuralTypes
