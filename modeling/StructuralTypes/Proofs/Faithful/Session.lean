import StructuralTypes.Proofs.Composition
import StructuralTypes.Proofs.Population.Structure

/-!
# What nodes say about types

A node repeats what the tables tell of a type: whether a record is sealed, and by what name a type
is known where the node is. The tables go on being written to after the node was made, so it matters
that nothing of this is changed any more: a record type stays sealed or not, a type keeps its symbol
once it has one, a symbol its name and its package.

`s.KeepsFaithful t` says that this is so from `s` to `t`, and that the definitions that have been
registered in between are faithful to the tables of `t`. Every single step keeps nodes faithful, or
it changes a symbol or a type in a way that could do harm, and these are few.

Results:
* `Session.KeepsFaithful.refl`, `Session.KeepsFaithful.trans`: it is a preorder.
* `TypeNode.Faithful.mono`: what was true of a node stays true.
* `composes_keepsFaithful`: two operations in a row.
* `keepsFaithful_changeType`, `keepsFaithful_changeTypeLinks`: harmless changes.
-/

namespace StructuralTypes

/-- Whether a record type is sealed. -/
def Ty.sealed? : Ty → Option Bool
  | .record r => some r.sealed
  | _ => none

theorem Ty.sealed?_eq_some_iff {ty : Ty} {b : Bool} :
    ty.sealed? = some b ↔ ∃ r, ty = .record r ∧ r.sealed = b := by
  cases ty <;> simp [sealed?]

@[simp] theorem Ty.sealed?_mapFields (f : FieldMap → FieldMap) (ty : Ty) :
    (ty.mapFields f).sealed? = ty.sealed? := by
  cases ty <;> rfl

@[simp] theorem Ty.sealed?_withRest (rest : TypeId) (ty : Ty) :
    (ty.withRest rest).sealed? = ty.sealed? := by
  cases ty <;> rfl

/-- The node is of a record type, and it is sealed if that is. -/
def StructureNode.SealedAlike (n : StructureNode) (T : TypeTable) : Prop :=
  ∃ ty e, n.ty = some ty ∧ T.find ty = .ok e ∧ e.ty.sealed? = some n.sealed

/-- The reference is to a type with a symbol. It has the name of that symbol, and as its qualifier
the local name of that symbol's package. -/
def TypeReference.Qualified (r : TypeReference) (S : SymbolTable) (T : TypeTable)
    (imports : List Import) : Prop :=
  ∃ target e y named, r.ty = some target ∧ T.find target = .ok e ∧ e.symbol = some y ∧
    S.find y = .ok named ∧ r.name.name = named.name ∧
      Aliases named.package imports r.qualifier.name

/-- What the node says is true of the tables: a record is sealed alike, and what it includes is
referred to as it is imported. -/
structure TypeNode.Faithful (n : TypeNode) (S : SymbolTable) (T : TypeTable)
    (imports : List Import) : Prop where
  /-- A record node is sealed if its type is. -/
  sealed : ∀ m, n = .record m → m.SealedAlike T
  /-- What a structure includes is known by this name. -/
  references : ∀ m, n.structure? = some m → ∀ r ∈ m.references, r.Qualified S T imports

/-- From the session `s` to the session `t`, nodes stay faithful, and those of the definitions that
have been registered are. -/
structure Session.KeepsFaithful (s t : Session) : Prop where
  /-- Record types are sealed as they were, and types keep their symbols. -/
  types : ∀ ty e, s.types.find ty = .ok e → ∃ e', t.types.find ty = .ok e' ∧
    e'.ty.sealed? = e.ty.sealed? ∧ ∀ y, e.symbol = some y → e'.symbol = some y
  /-- Symbols keep their names and packages. -/
  symbols : ∀ y named, s.symbols.find y = .ok named → ∃ named', t.symbols.find y = .ok named' ∧
    named'.name = named.name ∧ named'.package = named.package
  /-- The imports are the same. -/
  imports : t.package.imports = s.package.imports
  /-- New definitions are faithful. -/
  definitions : ∃ ds, t.package.typeDefinitions = s.package.typeDefinitions ++ ds ∧
    ∀ d ∈ ds, d.node.Faithful t.symbols t.types t.package.imports

section

variable {s t u : Session}

theorem StructureNode.SealedAlike.mono {n : StructureNode} (h : n.SealedAlike s.types)
    (ht : s.KeepsFaithful t) : n.SealedAlike t.types := by
  obtain ⟨ty, e, hty, he, hsealed⟩ := h
  obtain ⟨e', he', hsame, -⟩ := ht.types ty e he
  exact ⟨ty, e', hty, he', hsame.trans hsealed⟩

theorem TypeReference.Qualified.mono {r : TypeReference}
    (h : r.Qualified s.symbols s.types s.package.imports) (ht : s.KeepsFaithful t) :
    r.Qualified t.symbols t.types t.package.imports := by
  obtain ⟨target, e, y, named, hr, he, hy, hnamed, hname, haliases⟩ := h
  obtain ⟨e', he', -, hsymbol⟩ := ht.types target e he
  obtain ⟨named', hnamed', hname', hpackage⟩ := ht.symbols y named hnamed
  refine ⟨target, e', y, named', hr, he', hsymbol y hy, hnamed', hname.trans hname'.symm, ?_⟩
  rw [hpackage, ht.imports]
  exact haliases

/-- **What was true of a node stays true.** -/
theorem TypeNode.Faithful.mono {n : TypeNode}
    (h : n.Faithful s.symbols s.types s.package.imports) (ht : s.KeepsFaithful t) :
    n.Faithful t.symbols t.types t.package.imports where
  sealed m hm := (h.sealed m hm).mono ht
  references m hm r hr := (h.references m hm r hr).mono ht

namespace Session.KeepsFaithful

theorem trans (h : s.KeepsFaithful t) (h' : t.KeepsFaithful u) : s.KeepsFaithful u where
  types ty e he := by
    obtain ⟨e₁, he₁, hsealed₁, hsymbol₁⟩ := h.types ty e he
    obtain ⟨e₂, he₂, hsealed₂, hsymbol₂⟩ := h'.types ty e₁ he₁
    exact ⟨e₂, he₂, hsealed₂.trans hsealed₁, fun y hy => hsymbol₂ y (hsymbol₁ y hy)⟩
  symbols y named hnamed := by
    obtain ⟨named₁, hnamed₁, hname₁, hpackage₁⟩ := h.symbols y named hnamed
    obtain ⟨named₂, hnamed₂, hname₂, hpackage₂⟩ := h'.symbols y named₁ hnamed₁
    exact ⟨named₂, hnamed₂, hname₂.trans hname₁, hpackage₂.trans hpackage₁⟩
  imports := h'.imports.trans h.imports
  definitions := by
    obtain ⟨ds, hds, hall⟩ := h.definitions
    obtain ⟨ds', hds', hall'⟩ := h'.definitions
    refine ⟨ds ++ ds', by rw [hds', hds, List.append_assoc], fun d hd => ?_⟩
    exact (List.mem_append.1 hd).elim (fun hd => (hall d hd).mono h') (hall' d)

/-- Symbols and types may be added, and all but the package may be different. -/
theorem of_grows (hsymbols : Grows s.symbols.symbols t.symbols.symbols)
    (htypes : s.types.Grows t.types) (hpackage : t.package = s.package) : s.KeepsFaithful t where
  types _ e he := ⟨e, htypes.find he, rfl, fun _ hy => hy⟩
  symbols _ named hnamed := ⟨named, SymbolTable.find_mono hsymbols hnamed, rfl, rfl⟩
  imports := by rw [hpackage]
  definitions := ⟨[], by rw [hpackage, List.append_nil], by simp⟩

theorem refl (s : Session) : s.KeepsFaithful s := .of_grows (.refl _) (Grows.refl _) rfl

/-- A symbol may be changed, but not in its name and its package. -/
theorem of_change {symbols : SymbolTable} {y : SymbolId} {f : Symbol → Symbol}
    (hf : ∀ named, (f named).name = named.name ∧ (f named).package = named.package)
    (h : s.symbols.change y f = .ok symbols) : s.KeepsFaithful { s with symbols } := by
  obtain ⟨found, hfound, rfl⟩ := SymbolTable.change_eq_ok h
  refine { types := (refl s).types, symbols := fun z named hnamed => ?_, imports := rfl
           definitions := ⟨[], by simp, by simp⟩ }
  by_cases hz : z = y
  · subst hz
    obtain rfl := Except.ok.inj (hfound.symm.trans hnamed)
    exact ⟨_, SymbolTable.find_set_self hfound _, hf found⟩
  · have hne : y.index ≠ z.index := fun heq => hz (congrArg SymbolId.mk heq.symm)
    refine ⟨named, ?_, rfl, rfl⟩
    rw [SymbolTable.find_eq_ok_iff] at hnamed ⊢
    exact (Array.getElem?_setIfInBounds_ne hne).trans hnamed

/-- A type may be changed, but not in its symbol and in whether it is a sealed record. -/
theorem of_changeType {types : TypeTable} {ty : TypeId} {f : TypeEntry → TypeEntry}
    (hf : ∀ e, (f e).ty.sealed? = e.ty.sealed? ∧ (f e).symbol = e.symbol)
    (h : s.types.change ty f = .ok types) : s.KeepsFaithful { s with types } := by
  cases hfound : s.types.find ty with
  | error x => simp [TypeTable.change, hfound, bind, Except.bind] at h
  | ok found =>
    rw [TypeTable.change_of_find hfound] at h
    cases h
    refine { types := fun ty' e he => ?_, symbols := (refl s).symbols, imports := rfl
             definitions := ⟨[], by simp, by simp⟩ }
    by_cases hty : ty' = ty
    · subst hty
      obtain rfl := Except.ok.inj (hfound.symm.trans he)
      exact ⟨_, TypeTable.find_set_self hfound _, (hf found).1, fun y hy => (hf found).2.trans hy⟩
    · exact ⟨e, TypeTable.find_set_of_ne hty _ he, rfl, fun _ hy => hy⟩

/-- A faithful definition may be registered. -/
theorem of_registerType {d : TypeDefinition} {n : Nat} {package : Package}
    (hd : d.node.Faithful s.symbols s.types s.package.imports)
    (h : s.package.registerType d = .ok (n, package)) : s.KeepsFaithful { s with package } := by
  obtain ⟨-, -, rfl⟩ := Package.registerType_eq_ok_iff.1 h
  refine { refl s with definitions := ⟨[d], rfl, fun d' hd' => ?_⟩ }
  obtain rfl := List.mem_singleton.1 hd'
  exact hd

end Session.KeepsFaithful

end

namespace Synth

variable {α β : Type} {x : Synth α} {s t u : Session}

/-- The operation keeps nodes faithful, however it ends. -/
def KeepsFaithful (x : Synth α) : Prop :=
  ∀ s, Ends x s (fun _ t => s.KeepsFaithful t) fun _ t => s.KeepsFaithful t

theorem Inspects.keepsFaithful (hx : Inspects x) : KeepsFaithful x :=
  fun s => hx.upholds s (.refl s)

/-- After an operation that keeps nodes faithful comes the next one. -/
theorem KeepsFaithful.ends_next {f : α → Synth β} {Q : β → Session → Prop}
    {E : Stop → Session → Prop}
    (hx : KeepsFaithful x) (hs : s.KeepsFaithful t) (hE : ∀ e u, s.KeepsFaithful u → E e u)
    (hf : ∀ a u, s.KeepsFaithful u → Ends (f a) u Q E) : Ends (x >>= f) t Q E :=
  ends_bind.2 ((hx t).imp (fun a u hu => hf a u (hs.trans hu))
    fun e u hu => hE e u (hs.trans hu))

/-- **Two operations in a row keep nodes faithful** if each does. -/
theorem composes_keepsFaithful : Composes KeepsFaithful where
  inspects hx := hx.keepsFaithful
  bind hx hf s := hx.ends_next (.refl s) (fun _ _ h => h) fun a t ht =>
    (hf a t).imp (fun _ _ hu => ht.trans hu) fun _ _ hu => ht.trans hu

/-- Neither the counters nor what is known of clones matter. -/
theorem keepsFaithful_aside (s : Session) (names : NameSupply) (memo pending : CloneMap) :
    s.KeepsFaithful { s with names, memo, pending } :=
  .of_grows (.refl _) (Grows.refl _) rfl

/-! ## Single steps -/

theorem keepsFaithful_addSymbol (kind : SymbolKind) (d : Declaration) :
    KeepsFaithful (addSymbol kind d) :=
  fun s => ends_addSymbol.2 (.of_grows (s.symbols.grows_add kind d) (Grows.refl _) rfl)

theorem keepsFaithful_addType (e : TypeEntry) : KeepsFaithful (addType e) :=
  fun _ => ends_addType.2 (.of_grows (.refl _) (Grows.push _ _) rfl)

theorem keepsFaithful_remember (ty variant : TypeId) : KeepsFaithful (remember ty variant) :=
  fun s => keepsFaithful_aside s _ _ _

/-- Binding a name leaves all symbols as they are. -/
theorem keepsFaithful_define (owner : SymbolId) (name : String) (y : SymbolId) :
    KeepsFaithful (define owner name y) := by
  refine fun s => ends_onSymbols.2 ⟨fun symbols h => ?_, fun _ _ => .refl s⟩
  obtain ⟨-, -, -, -, hsame⟩ := SymbolTable.bindings?_defineIn h
  exact .of_grows (hsame ▸ .refl _) (Grows.refl _) rfl

theorem keepsFaithful_changeTypeLinks (y : SymbolId) (role : SymbolRole)
    (f : TypeLinks → TypeLinks) : KeepsFaithful (changeTypeLinks y role f) := by
  unfold changeTypeLinks
  refine composes_keepsFaithful.bind (inspects_symbol y).keepsFaithful fun named => ?_
  split
  · refine fun s => ends_onSymbols.2 ⟨fun symbols h => ?_, fun _ _ => .refl s⟩
    exact .of_change (fun named => ⟨named.mapTypeLinks_name f, named.mapTypeLinks_package f⟩) h
  · exact composes_keepsFaithful.stop rfl

theorem keepsFaithful_changeType {ty : TypeId} {f : TypeEntry → TypeEntry}
    (hf : ∀ e, (f e).ty.sealed? = e.ty.sealed? ∧ (f e).symbol = e.symbol) :
    KeepsFaithful (changeType ty f) :=
  fun s => ends_onTypes.2 ⟨fun _ h => .of_changeType hf h, fun _ _ => .refl s⟩

end Synth

end StructuralTypes
