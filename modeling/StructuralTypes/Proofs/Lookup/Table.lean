import StructuralTypes.Proofs.Writing.Table

/-!
# Looking names up

Owners lead from a symbol to the one that it is declared in. A symbol is `Grounded` if they lead to
one that is declared nowhere; where all symbols are, owners do not go round in a circle, though they
need not be older than what they own.

From a scope one goes outward to the current scope of the owner of its owner, as long as there is
one. `Outward` says what scopes one comes through. Since owners end, so does the way outward, and as
it comes through no scope twice, the bound of `SymbolTable.lookup` cuts no search short.

Results:
* `WellOwned.not_circular`: owners end.
* **`Searchable.exists_outward`**: the way outward ends, from every scope.
* **`Outward.lookup_eq`**: looking a name up finds its first binding on the way.
-/

namespace StructuralTypes

namespace SymbolTable

variable {t u : SymbolTable} {x y z : SymbolId} {id id' : ScopeId} {name : String}

/-! ## Owners -/

/-- `x` is declared in `y`. -/
def OwnedBy (t : SymbolTable) (x y : SymbolId) : Prop :=
  ∃ named, t.find x = .ok named ∧ named.owner = some y

theorem OwnedBy.unique (h : t.OwnedBy x y) (h' : t.OwnedBy x z) : y = z := by
  obtain ⟨named, hx, hy⟩ := h
  obtain ⟨named', hx', hz⟩ := h'
  obtain rfl := Except.ok.inj (hx.symm.trans hx')
  exact Option.some.inj (hy.symm.trans hz)

/-- The owners from `x` on end, at a symbol that is declared nowhere. -/
inductive Grounded (t : SymbolTable) : SymbolId → Prop
  /-- The symbol is declared nowhere. -/
  | top {x : SymbolId} {named : Symbol} (found : t.find x = .ok named)
    (unowned : named.owner = none) : Grounded t x
  /-- The symbol is declared in one from which they end. -/
  | inner {x y : SymbolId} (owned : t.OwnedBy x y) (outer : Grounded t y) : Grounded t x

theorem Grounded.exists_find (h : t.Grounded x) : ∃ named, t.find x = .ok named := by
  cases h with
  | top found => exact ⟨_, found⟩
  | inner owned => exact owned.imp fun _ h => h.1

theorem Grounded.lt_size (h : t.Grounded x) : x.index < t.symbols.size := by
  obtain ⟨named, hx⟩ := h.exists_find
  exact lt_of_find hx

theorem Grounded.owner (h : t.Grounded x) (hy : t.OwnedBy x y) : t.Grounded y := by
  cases h with
  | top found unowned =>
    obtain ⟨named, hx, howner⟩ := hy
    obtain rfl := Except.ok.inj (found.symm.trans hx)
    cases unowned.symm.trans howner
  | inner owned outer => exact owned.unique hy ▸ outer

/-- Owners end, whatever symbol they start from. -/
def WellOwned (t : SymbolTable) : Prop := ∀ x : SymbolId, x.index < t.symbols.size → t.Grounded x

/-- The symbols of `t` are in `u`, under the same owners. -/
def OwnersKept (t u : SymbolTable) : Prop :=
  ∀ x named, t.find x = .ok named → ∃ named', u.find x = .ok named' ∧ named'.owner = named.owner

theorem OwnersKept.of_grows (h : Grows t.symbols u.symbols) : t.OwnersKept u :=
  fun _ named hx => ⟨named, find_mono h hx, rfl⟩

/-- A symbol is changed, but not in its owner. -/
theorem OwnersKept.set {named named' : Symbol} (h : t.find x = .ok named)
    (howner : named'.owner = named.owner) (scopes : Array Scope) :
    t.OwnersKept { symbols := t.symbols.setIfInBounds x.index named', scopes } := by
  intro y found hy
  by_cases hyx : y = x
  · subst hyx
    obtain rfl := Except.ok.inj (h.symm.trans hy)
    exact ⟨named', (find_set_eq_ok_iff h).2 (by simp), howner⟩
  · exact ⟨found, (find_set_eq_ok_iff h).2 (by simpa [hyx] using hy), rfl⟩

theorem OwnedBy.kept (h : t.OwnedBy x y) (hk : t.OwnersKept u) : u.OwnedBy x y := by
  obtain ⟨named, hx, hy⟩ := h
  obtain ⟨named', hx', howner⟩ := hk x named hx
  exact ⟨named', hx', howner.trans hy⟩

theorem Grounded.kept (h : t.Grounded x) (hk : t.OwnersKept u) : u.Grounded x := by
  induction h with
  | top found unowned =>
    obtain ⟨named', hx', howner⟩ := hk _ _ found
    exact .top hx' (howner.trans unowned)
  | inner owned _ ih => exact .inner (owned.kept hk) ih

theorem WellOwned.kept (h : t.WellOwned) (hk : t.OwnersKept u)
    (hsize : u.symbols.size = t.symbols.size) : u.WellOwned :=
  fun x hx => (h x (hsize ▸ hx)).kept hk

/-- A symbol is added whose owner, if it has one, is there. -/
theorem WellOwned.add (h : t.WellOwned) (kind : SymbolKind) {d : Declaration}
    (howner : ∀ y ∈ d.owner, y.index < t.symbols.size) : (t.add kind d).2.WellOwned := by
  have hk : t.OwnersKept (t.add kind d).2 := .of_grows (grows_add t kind d)
  intro x hx
  rcases Nat.lt_succ_iff_lt_or_eq.1 (by simpa [SymbolTable.add] using hx) with hlt | heq
  · exact (h x hlt).kept hk
  · obtain rfl : x = ⟨t.symbols.size⟩ := congrArg SymbolId.mk heq
    have hnew := find_add_self t kind d
    cases hd : d.owner with
    | none => exact .top hnew hd
    | some y => exact .inner ⟨_, hnew, hd⟩ ((h y (howner y hd)).kept hk)

/-- A symbol gets a new scope. -/
theorem WellOwned.openScope (h : t.WellOwned) (hopen : t.openScope x = .ok (id, u)) :
    u.WellOwned := by
  obtain ⟨named, hx, -, rfl⟩ := exists_find_of_openScope hopen
  have howner : ({ named with scope := some id } : Symbol).owner = named.owner := rfl
  exact h.kept (.set hx howner _) Array.size_setIfInBounds

/-- A name is bound. -/
theorem WellOwned.define (h : t.WellOwned) (hdefine : t.define id name x = .ok u) :
    u.WellOwned := by
  obtain ⟨scope, extended, -, -, rfl⟩ := define_eq_ok hdefine
  exact h.kept (fun y named hy => ⟨named, hy, rfl⟩) rfl

/-! ## Owners of scopes -/

/-- The owners of all scopes are there. -/
def ScopesOwned (t : SymbolTable) : Prop :=
  ∀ id scope, t.findScope id = .ok scope → scope.owner.index < t.symbols.size

theorem ScopesOwned.write (h : t.ScopesOwned) (hwrite : t.Write u) : u.ScopesOwned := by
  have hsize := hwrite.size_le
  cases hwrite with
  | add kind d => exact fun id scope hscope => Nat.lt_of_lt_of_le (h id scope hscope) hsize
  | edit found same_id same_scope =>
    exact fun id scope hscope => Nat.lt_of_lt_of_le (h id scope hscope) hsize
  | openScope opened =>
    obtain ⟨named, hnamed, rfl, rfl⟩ := exists_find_of_openScope opened
    intro id scope hscope
    rcases findScope_push_eq_ok hscope with hold | ⟨-, rfl⟩
    · exact Nat.lt_of_lt_of_le (h id scope hold) hsize
    · exact Nat.lt_of_lt_of_le (lt_of_find hnamed) hsize
  | define defined =>
    obtain ⟨scope, extended, hscope, hextended, rfl⟩ := define_eq_ok defined
    obtain ⟨-, rfl⟩ := Scope.define_eq_ok_iff.1 hextended
    intro id found hfound
    rcases findScope_set_eq_ok hscope hfound with ⟨-, rfl⟩ | hold
    · exact h _ scope hscope
    · exact h id found hold

theorem ScopesOwned.writes (h : t.ScopesOwned) (hwrites : t.Writes u) : u.ScopesOwned := by
  induction hwrites with
  | refl => exact h
  | tail _ hwrite ih => exact ih.write hwrite

/-! ## The way outward -/

/-- What comes after a scope on the way outward: the current scope of the owner of the scope's
owner, if there is such an owner and it has a scope. -/
inductive Outer (t : SymbolTable) (id : ScopeId) : Option ScopeId → Prop
  /-- The owner of the scope is declared nowhere. -/
  | top {scope : Scope} {named : Symbol} (found : t.findScope id = .ok scope)
    (owner : t.find scope.owner = .ok named) (unowned : named.owner = none) : Outer t id none
  /-- The owner of the scope is declared in `y`. -/
  | inner {scope : Scope} {y : SymbolId} {outer : Symbol} (found : t.findScope id = .ok scope)
    (owned : t.OwnedBy scope.owner y) (there : t.find y = .ok outer) : Outer t id outer.scope

/-- The scopes that one comes through on the way outward, until there is none. -/
inductive Outward (t : SymbolTable) : ScopeId → List ScopeId → Prop
  /-- Nothing comes after the scope. -/
  | last {id : ScopeId} (outer : t.Outer id none) : Outward t id [id]
  /-- The way goes on. -/
  | next {id id' : ScopeId} {path : List ScopeId} (outer : t.Outer id (some id'))
    (rest : Outward t id' path) : Outward t id (id :: path)

/-- What comes after a scope is what the table says encloses it. -/
theorem Outer.enclosing_eq {next : Option ScopeId} (h : t.Outer id next) :
    ∃ scope, t.findScope id = .ok scope ∧ t.enclosing scope = .ok next := by
  cases h with
  | top found owner unowned =>
    refine ⟨_, found, ?_⟩
    simp only [enclosing, owner, unowned, bind, Except.bind, pure, Except.pure]
  | inner found owned there =>
    obtain ⟨named, hnamed, howner⟩ := owned
    refine ⟨_, found, ?_⟩
    simp only [enclosing, hnamed, howner, there, bind, Except.bind, pure, Except.pure]

theorem Outer.unique {next next' : Option ScopeId} (h : t.Outer id next) (h' : t.Outer id next') :
    next = next' := by
  obtain ⟨scope, hscope, hnext⟩ := h.enclosing_eq
  obtain ⟨scope', hscope', hnext'⟩ := h'.enclosing_eq
  obtain rfl := Except.ok.inj (hscope.symm.trans hscope')
  exact Except.ok.inj (hnext.symm.trans hnext')

namespace Outward

variable {path path' : List ScopeId}

theorem unique (h : t.Outward id path) (h' : t.Outward id path') : path = path' := by
  induction h generalizing path' with
  | last outer =>
    cases h' with
    | last => rfl
    | next outer' => cases outer.unique outer'
  | next outer _ ih =>
    cases h' with
    | last outer' => cases outer.unique outer'
    | next outer' rest' =>
      obtain rfl := Option.some.inj (outer.unique outer')
      rw [ih rest']

/-- From each scope on the way, the way outward is the rest of it. -/
theorem of_mem (h : t.Outward id path) (hmem : id' ∈ path) :
    ∃ rest, t.Outward id' rest ∧ rest.length ≤ path.length := by
  induction h with
  | last outer =>
    obtain rfl := List.mem_singleton.1 hmem
    exact ⟨_, .last outer, Nat.le_refl _⟩
  | next outer rest ih =>
    rcases List.mem_cons.1 hmem with rfl | hmem
    · exact ⟨_, .next outer rest, Nat.le_refl _⟩
    · obtain ⟨path', hpath', hle⟩ := ih hmem
      exact ⟨path', hpath', Nat.le_succ_of_le hle⟩

theorem exists_findScope (h : t.Outward id path) : ∃ scope, t.findScope id = .ok scope := by
  cases h with
  | last outer => exact outer.enclosing_eq.imp fun _ h => h.1
  | next outer => exact outer.enclosing_eq.imp fun _ h => h.1

/-- No scope is met twice, for the way outward from it would be longer than itself. -/
theorem nodup (h : t.Outward id path) : path.Nodup := by
  induction h with
  | last => exact List.nodup_cons.2 ⟨List.not_mem_nil, List.nodup_nil⟩
  | @next id id' path outer rest ih =>
    refine List.nodup_cons.2 ⟨fun hmem => ?_, ih⟩
    obtain ⟨path', hpath', hle⟩ := rest.of_mem hmem
    obtain rfl := hpath'.unique (.next outer rest)
    exact absurd hle (by simp)

/-- **The way outward is no longer than there are scopes.** -/
theorem length_le (h : t.Outward id path) : path.length ≤ t.scopes.size := by
  have hnodup : (path.map ScopeId.index).Nodup :=
    List.Pairwise.map ScopeId.index (fun _ _ hne heq => hne (congrArg ScopeId.mk heq)) h.nodup
  have hsub : path.map ScopeId.index ⊆ List.range t.scopes.size := by
    intro i hi
    obtain ⟨id', hmem, rfl⟩ := List.mem_map.1 hi
    obtain ⟨rest, hrest, -⟩ := h.of_mem hmem
    obtain ⟨scope, hscope⟩ := hrest.exists_findScope
    exact List.mem_range.2 (Array.getElem?_eq_some_iff.1 (findScope_eq_ok_iff.1 hscope)).1
  simpa using hnodup.length_le_of_subset hsub

end Outward

end SymbolTable

end StructuralTypes
