import Mathlib.Logic.Relation
import StructuralTypes.Proofs.Attachment.Table

/-!
# What can be written to a symbol table

Whatever a synthesis does to a symbol table, it does by four writes: it adds a symbol, changes one
without touching its handle and its scope, gives one a new scope, and binds a name. `Write` says
so once, and what is true of the tables and their scopes over any number of writes is derived from
it by one look at each of the four.

Results:
* **`Orderly.writes`**: symbols and scopes stay where their handles say, and the scope of a symbol
  is owned by it.
* **`ScopesGrow.of_writes`**: scopes keep their owners, and bindings are only appended.
* `HasBinding.grow`: a name goes on meaning what it meant.
-/

namespace StructuralTypes

namespace SymbolTable

variable {t u v : SymbolTable} {x y : SymbolId} {id : ScopeId} {name : String}

/-! ## Writes -/

/-- One write to a symbol table. -/
inductive Write (t : SymbolTable) : SymbolTable → Prop
  /-- A symbol is added. -/
  | add (kind : SymbolKind) (d : Declaration) : Write t (t.add kind d).2
  /-- A symbol is changed, but not in its handle and its scope. -/
  | edit {x : SymbolId} {named named' : Symbol} (found : t.find x = .ok named)
    (same_id : named'.id = named.id) (same_scope : named'.scope = named.scope) :
    Write t { t with symbols := t.symbols.setIfInBounds x.index named' }
  /-- A symbol gets a new, empty scope. -/
  | openScope {owner : SymbolId} {id : ScopeId} {u : SymbolTable}
    (opened : t.openScope owner = .ok (id, u)) : Write t u
  /-- A name is bound. -/
  | define {scope : ScopeId} {name : String} {x : SymbolId} {u : SymbolTable}
    (defined : t.define scope name x = .ok u) : Write t u

/-- Any number of writes, one after the other. -/
abbrev Writes : SymbolTable → SymbolTable → Prop := Relation.ReflTransGen Write

theorem exists_find_of_openScope (h : t.openScope x = .ok (id, u)) :
    ∃ named, t.find x = .ok named ∧ id = ⟨t.scopes.size⟩ ∧
      u = { symbols := t.symbols.setIfInBounds x.index { named with scope := some id }
            scopes := t.scopes.push { id, owner := x } } := by
  cases hx : t.find x with
  | error e => simp [SymbolTable.openScope, change, hx, bind, Except.bind] at h
  | ok named =>
    obtain ⟨rfl, rfl⟩ := Prod.mk.inj (Except.ok.inj ((openScope_of_find hx).symm.trans h))
    exact ⟨named, rfl, rfl, rfl⟩

/-- Nothing is removed. -/
theorem Write.size_le (h : t.Write u) : t.symbols.size ≤ u.symbols.size := by
  cases h with
  | add kind d => simp [SymbolTable.add]
  | edit found same_id same_scope => simp
  | openScope opened =>
    obtain ⟨named, -, -, rfl⟩ := exists_find_of_openScope opened
    simp
  | define defined =>
    obtain ⟨scope, extended, -, -, rfl⟩ := define_eq_ok defined
    exact Nat.le_refl _

theorem Writes.size_le (h : t.Writes u) : t.symbols.size ≤ u.symbols.size := by
  induction h with
  | refl => exact Nat.le_refl _
  | tail _ hwrite ih => exact Nat.le_trans ih hwrite.size_le

/-! ## Order in the table -/

/-- Symbols and scopes stand where their handles say, the scope of a symbol is its own, and no scope
binds a name twice. -/
structure Orderly (t : SymbolTable) : Prop where
  /-- The handle of a symbol is its position. -/
  symbol_id : ∀ x named, t.find x = .ok named → named.id = x
  /-- The handle of a scope is its position. -/
  scope_id : ∀ id scope, t.findScope id = .ok scope → scope.id = id
  /-- The current scope of a symbol is there, and owned by the symbol. -/
  current : ∀ x named id, t.find x = .ok named → named.scope = some id →
    ∃ scope, t.findScope id = .ok scope ∧ scope.owner = x
  /-- Names are bound once. -/
  distinct : ∀ id scope, t.findScope id = .ok scope →
    (scope.bindings.entries.map Prod.fst).Nodup

theorem orderly_empty : (∅ : SymbolTable).Orderly := by
  have hsymbols : ∀ x named, (∅ : SymbolTable).find x ≠ .ok named := by
    intro x named h
    have hget : (#[] : Array Symbol)[x.index]? = some named := find_eq_ok_iff.1 h
    simp at hget
  have hscopes : ∀ id scope, (∅ : SymbolTable).findScope id ≠ .ok scope := by
    intro id scope h
    have hget : (#[] : Array Scope)[id.index]? = some scope := findScope_eq_ok_iff.1 h
    simp at hget
  exact ⟨fun x named h => absurd h (hsymbols x named),
    fun id scope h => absurd h (hscopes id scope),
    fun x named _ h => absurd h (hsymbols x named), fun id scope _ => scope.bindings.nodup⟩

/-- A symbol that is there after another one was added was there before, or is the new one. -/
theorem find_push_eq_ok {scopes : Array Scope} {named found : Symbol}
    (h : ({ symbols := t.symbols.push named, scopes } : SymbolTable).find x = .ok found) :
    t.find x = .ok found ∨ x = ⟨t.symbols.size⟩ ∧ found = named := by
  rw [find_eq_ok_iff] at h
  simp only [Array.getElem?_push] at h
  split at h
  · rename_i hx
    exact .inr ⟨congrArg SymbolId.mk hx, (Option.some.inj h).symm⟩
  · exact .inl (find_eq_ok_iff.2 h)

/-- A scope that is there after another one was added was there before, or is the new one. -/
theorem findScope_push_eq_ok {symbols : Array Symbol} {scope found : Scope}
    (h : ({ symbols, scopes := t.scopes.push scope } : SymbolTable).findScope id = .ok found) :
    t.findScope id = .ok found ∨ id = ⟨t.scopes.size⟩ ∧ found = scope := by
  rw [findScope_eq_ok_iff] at h
  simp only [Array.getElem?_push] at h
  split at h
  · rename_i hid
    exact .inr ⟨congrArg ScopeId.mk hid, (Option.some.inj h).symm⟩
  · exact .inl (findScope_eq_ok_iff.2 h)

/-- After a scope was changed, another one reads back as before. -/
theorem findScope_set_eq_ok {scope scope' found : Scope} (h : t.findScope id = .ok scope)
    {id' : ScopeId}
    (hfound : ({ t with scopes := t.scopes.setIfInBounds id.index scope' } : SymbolTable).findScope
      id' = .ok found) : id' = id ∧ found = scope' ∨ t.findScope id' = .ok found := by
  by_cases hid : id' = id
  · subst hid
    exact .inl ⟨rfl, (Except.ok.inj ((findScope_set_self h scope').symm.trans hfound)).symm⟩
  · refine .inr ?_
    have hne : id.index ≠ id'.index := fun heq => hid (congrArg ScopeId.mk heq.symm)
    rw [findScope_eq_ok_iff] at hfound ⊢
    rwa [Array.getElem?_setIfInBounds_ne hne] at hfound

/-! ## Scopes that grow -/

/-- The scopes of `t` are there in `u` under the same owners, and have got more bindings at most. -/
def ScopesGrow (t u : SymbolTable) : Prop :=
  ∀ id scope, t.findScope id = .ok scope → ∃ scope', u.findScope id = .ok scope' ∧
    scope'.id = scope.id ∧ scope'.owner = scope.owner ∧
      scope.bindings.entries <+: scope'.bindings.entries

theorem ScopesGrow.refl (t : SymbolTable) : t.ScopesGrow t :=
  fun _ scope h => ⟨scope, h, rfl, rfl, List.prefix_rfl⟩

theorem ScopesGrow.trans (h : t.ScopesGrow u) (h' : u.ScopesGrow v) : t.ScopesGrow v := by
  intro id scope hscope
  obtain ⟨scope', hscope', hid, howner, hbindings⟩ := h id scope hscope
  obtain ⟨scope'', hscope'', hid', howner', hbindings'⟩ := h' id scope' hscope'
  exact ⟨scope'', hscope'', hid'.trans hid, howner'.trans howner, hbindings.trans hbindings'⟩

/-- Scopes are only added. -/
theorem ScopesGrow.of_grows (h : Grows t.scopes u.scopes) : t.ScopesGrow u := fun _ scope hscope =>
  ⟨scope, findScope_mono h hscope, rfl, rfl, List.prefix_rfl⟩

/-- Binding a name appends a binding to one scope. -/
theorem ScopesGrow.of_define (h : t.define id name x = .ok u) : t.ScopesGrow u := by
  obtain ⟨scope, extended, hscope, hextended, rfl⟩ := define_eq_ok h
  obtain ⟨hnew, rfl⟩ := Scope.define_eq_ok_iff.1 hextended
  intro id' found hfound
  by_cases hid : id' = id
  · subst hid
    obtain rfl := Except.ok.inj (hscope.symm.trans hfound)
    refine ⟨_, findScope_set_self hscope _, rfl, rfl, ?_⟩
    rw [OrderedMap.entries_insert_of_not_mem hnew]
    exact List.prefix_append _ _
  · have hne : id.index ≠ id'.index := fun heq => hid (congrArg ScopeId.mk heq.symm)
    refine ⟨found, ?_, rfl, rfl, List.prefix_rfl⟩
    rw [findScope_eq_ok_iff] at hfound ⊢
    rwa [Array.getElem?_setIfInBounds_ne hne]

theorem Write.scopesGrow (h : t.Write u) : t.ScopesGrow u := by
  cases h with
  | add kind d => exact .of_grows (.refl _)
  | edit found same_id same_scope => exact .of_grows (.refl _)
  | openScope opened =>
    obtain ⟨named, -, -, rfl⟩ := exists_find_of_openScope opened
    exact .of_grows (.push _ _)
  | define defined => exact .of_define defined

/-- **Scopes only grow.** -/
theorem ScopesGrow.of_writes (h : t.Writes u) : t.ScopesGrow u := by
  induction h with
  | refl => exact .refl t
  | tail _ hwrite ih => exact ih.trans hwrite.scopesGrow

/-! ## Order is kept -/

/-- One write leaves an orderly table. -/
theorem Orderly.write (h : t.Orderly) (hwrite : t.Write u) : u.Orderly := by
  -- no write touches the owner of a scope that is there
  have hcurrent : ∀ x id, (∃ scope, t.findScope id = .ok scope ∧ scope.owner = x) →
      ∃ scope, u.findScope id = .ok scope ∧ scope.owner = x := by
    rintro x id ⟨scope, hscope, rfl⟩
    obtain ⟨scope', hscope', -, howner, -⟩ := hwrite.scopesGrow id scope hscope
    exact ⟨scope', hscope', howner⟩
  cases hwrite with
  | add kind d =>
    refine ⟨fun x found hfound => ?_, h.scope_id, fun x found id hfound hid => ?_, h.distinct⟩
    · rcases find_push_eq_ok hfound with hold | ⟨rfl, rfl⟩
      · exact h.symbol_id x found hold
      · rfl
    · rcases find_push_eq_ok hfound with hold | ⟨rfl, rfl⟩
      · exact hcurrent x id (h.current x found id hold hid)
      · cases hid
  | edit found same_id same_scope =>
    refine ⟨fun x found' hfound' => ?_, h.scope_id, fun x found' id hfound' hid => ?_, h.distinct⟩
    · rw [find_set_eq_ok_iff found] at hfound'
      split at hfound' <;> rename_i hx
      · subst hx hfound'
        exact same_id.trans (h.symbol_id _ _ found)
      · exact h.symbol_id x found' hfound'
    · rw [find_set_eq_ok_iff found] at hfound'
      split at hfound' <;> rename_i hx
      · subst hx hfound'
        exact hcurrent _ _ (h.current _ _ _ found (same_scope.symm.trans hid))
      · exact hcurrent x id (h.current x found' id hfound' hid)
  | openScope opened =>
    obtain ⟨named, hnamed, rfl, rfl⟩ := exists_find_of_openScope opened
    refine ⟨fun x found hfound => ?_, fun id scope hscope => ?_, fun x found id hfound hid => ?_,
      fun id scope _ => scope.bindings.nodup⟩
    · rw [find_set_eq_ok_iff hnamed] at hfound
      split at hfound <;> rename_i hx
      · subst hx hfound
        exact h.symbol_id _ named hnamed
      · exact h.symbol_id x found hfound
    · rcases findScope_push_eq_ok hscope with hold | ⟨rfl, rfl⟩
      · exact h.scope_id id scope hold
      · rfl
    · rw [find_set_eq_ok_iff hnamed] at hfound
      split at hfound <;> rename_i hx
      · subst hx hfound
        obtain rfl := Option.some.inj hid
        exact ⟨_, findScope_eq_ok_iff.2 Array.getElem?_push_size, rfl⟩
      · exact hcurrent x id (h.current x found id hfound hid)
  | define defined =>
    obtain ⟨scope, extended, hscope, hextended, rfl⟩ := define_eq_ok defined
    obtain ⟨-, rfl⟩ := Scope.define_eq_ok_iff.1 hextended
    refine ⟨h.symbol_id, fun id found hfound => ?_,
      fun x found id hfound hid => hcurrent x id (h.current x found id hfound hid),
      fun id scope _ => scope.bindings.nodup⟩
    rcases findScope_set_eq_ok hscope hfound with ⟨rfl, rfl⟩ | hold
    · exact h.scope_id _ scope hscope
    · exact h.scope_id id found hold

/-- **Order is kept.** -/
theorem Orderly.writes (h : t.Orderly) (hwrites : t.Writes u) : u.Orderly := by
  induction hwrites with
  | refl => exact h
  | tail _ hwrite ih => exact ih.write hwrite

/-! ## Bindings -/

/-- The scope itself binds the name to the symbol. -/
def HasBinding (t : SymbolTable) (id : ScopeId) (name : String) (x : SymbolId) : Prop :=
  ∃ scope, t.findScope id = .ok scope ∧ scope.get? name = some x

instance : Decidable (t.HasBinding id name x) :=
  decidable_of_iff ((t.scopes[id.index]?).bind (·.get? name) = some x) <| by
    simp only [HasBinding, Option.bind_eq_some_iff, findScope_eq_ok_iff]

/-- **A name goes on meaning what it meant.** -/
theorem HasBinding.grow (h : t.HasBinding id name x) (hg : t.ScopesGrow u) :
    u.HasBinding id name x := by
  obtain ⟨scope, hscope, hx⟩ := h
  obtain ⟨scope', hscope', -, -, hbindings⟩ := hg id scope hscope
  exact ⟨scope', hscope', OrderedMap.get?_eq_some_iff.2
    (hbindings.subset (OrderedMap.get?_eq_some_iff.1 hx))⟩

end SymbolTable

end StructuralTypes
