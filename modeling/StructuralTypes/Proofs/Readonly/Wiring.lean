import StructuralTypes.Proofs.Readonly.Descent

/-!
# What belongs to a clone

The clone of a structure comes with a symbol, a scope for its symbol, fields, an initializer and a
definition. An `Outline` is what is settled of it before it is filled, and a `Wiring` is all of it:
from this follows what the symbol, the scope, the node and the definition are. `Stands` says that
the tables have all of it.

Work on a clone leaves everything else alone: `Aside` says so.

Results:
* `Outline.Stands.keep`: what stands, stands as long as the tables keep its parts.
* `Outline.Stands.aside`, `Wiring.Stands.aside`: it stands whatever is done at another clone.
* `Aside.addSymbol`, `Aside.setHolder`, `Aside.setScope`, `Aside.setClone`: the kinds of work.
-/

namespace StructuralTypes

/-- Whatever is declared so has no name of its own. -/
def Declaration.isAnonymous (d : Declaration) : Bool :=
  d.name.isEmpty || d.flags.contains (.only .anonymous)

/-- The declaration of a field with a symbol. -/
def Field.declared (f : Field) (x : SymbolId) : VariableNode :=
  { name := ⟨f.name, f.span⟩, ty := f.ty, symbol := x, span := f.span }

/-- The structure has exactly these fields, under their names, in this order. -/
def Ty.HasFields (ty : Ty) (fields : List (Field × SymbolId)) : Prop :=
  ∃ m, ty.fields? = some m ∧ m.entries = fields.map fun f => (f.1.name, f.1)

/-! ## Outlines -/

/-- A clone of a structure before it is filled. -/
structure Outline where
  /-- The structure. -/
  source : TypeId
  /-- Its type. -/
  ty : Ty
  /-- Its flags. -/
  flags : Flags
  /-- What its symbol is declared as. -/
  named : Declaration
  /-- What the symbols of all clones made on one occasion have in common. -/
  stamp : Stamp
  /-- The number in the name of the clone, if it is a made-up one. -/
  number : Option Nat
  /-- The clone. -/
  clone : TypeId
  /-- Its symbol. -/
  holder : SymbolId
  /-- The scope of its symbol. -/
  scope : ScopeId
deriving DecidableEq, Repr

namespace Outline

/-- The name of the clone: it shows that of the structure, or it is a made-up one. -/
def name (o : Outline) : String :=
  match o.number with
  | some n => NameSupply.name .anonymousType n
  | none => "(" ++ o.named.name ++ " & readonly)"

/-- The symbol of the clone, which links to an initializer once there is one. -/
def symbol (o : Outline) (links : TypeLinks) : Symbol :=
  { name := o.name, package := o.stamp.package, flags := o.named.flags ∪ .only .readonly
    origin := .virtual, span := o.stamp.span, ty := some o.clone, owner := some o.stamp.owner
    id := o.holder, kind := .type links, scope := some o.scope }

/-- The entry of the clone, made of what `ty` says. -/
def entry (o : Outline) (ty : Ty) : TypeEntry :=
  { ty, symbol := some o.holder, flags := o.flags ∪ .only .readonly }

/-- The reference by which the clone of a record includes the record. -/
def reference (o : Outline) (qualifier : String) : TypeReference :=
  { qualifier := ⟨qualifier, o.stamp.span⟩, name := ⟨o.named.name, o.stamp.span⟩
    ty := some o.source, span := o.stamp.span }

/-- The tables have the structure and its clone, which has come to be made of what the body says,
with these bindings and links. -/
structure Stands (o : Outline) (body : Ty) (bindings : List (String × SymbolId))
    (links : TypeLinks) (y : SymbolTable) (T : TypeTable) : Prop where
  /-- The structure is there with its symbol. -/
  source : ∃ x named, T.find o.source = .ok { ty := o.ty, symbol := some x, flags := o.flags } ∧
    y.find x = .ok named ∧ named.toDeclaration = o.named
  /-- The structure is not readonly. -/
  writable : o.flags.contains (.only .readonly) = false
  /-- The clone has a made-up name if the structure has none. -/
  numbered : o.number.isSome = o.named.isAnonymous
  /-- Both are structures of one kind. -/
  kind : ∃ kind, o.ty.structureKind? = some kind ∧ body.structureKind? = some kind
  /-- The clone is there. -/
  clone : T.find o.clone = .ok (o.entry body)
  /-- Its symbol is there. -/
  holder : y.find o.holder = .ok (o.symbol links)
  /-- The scope of its symbol is there. -/
  scope : ∃ scope, y.findScope o.scope = .ok scope ∧ scope.owner = o.holder ∧
    scope.bindings.entries = bindings

variable {o o' : Outline} {body : Ty} {bindings : List (String × SymbolId)} {links : TypeLinks}
  {y z : SymbolTable} {T U : TypeTable}

/-- What stands, stands as long as the tables keep its parts. -/
theorem Stands.keep (h : o.Stands body bindings links y T)
    (hsource : ∀ e, T.find o.source = .ok e → U.find o.source = .ok e)
    (hdeclared : ∀ x named, y.find x = .ok named →
      ∃ named', z.find x = .ok named' ∧ named'.toDeclaration = named.toDeclaration)
    (hclone : ∀ e, T.find o.clone = .ok e → U.find o.clone = .ok e)
    (hholder : ∀ named, y.find o.holder = .ok named → z.find o.holder = .ok named)
    (hscope : ∀ scope, y.findScope o.scope = .ok scope → z.findScope o.scope = .ok scope) :
    o.Stands body bindings links z U where
  source := by
    obtain ⟨x, named, he, hx, hnamed⟩ := h.source
    obtain ⟨named', hx', hnamed'⟩ := hdeclared x named hx
    exact ⟨x, named', hsource _ he, hx', hnamed'.trans hnamed⟩
  writable := h.writable
  numbered := h.numbered
  kind := h.kind
  clone := hclone _ h.clone
  holder := hholder _ h.holder
  scope := h.scope.imp fun scope hs => ⟨hscope scope hs.1, hs.2⟩

/-- A clone stands as the tables grow. -/
theorem Stands.grow (h : o.Stands body bindings links y T) (hs : Grows y.symbols z.symbols)
    (hc : Grows y.scopes z.scopes) (hT : T.Grows U) : o.Stands body bindings links z U := by
  have hfind : ∀ x named, y.find x = .ok named → z.find x = .ok named := fun _ _ hx =>
    SymbolTable.find_mono hs hx
  exact h.keep (fun e he => hT.find he) (fun x named hx => ⟨named, hfind x named hx, rfl⟩)
    (fun e he => hT.find he) (fun named hx => hfind _ named hx)
    fun scope hscope => SymbolTable.findScope_mono hc hscope

/-- The structure is not a clone. -/
theorem Stands.source_ne (h : o.Stands body bindings links y T) {body' : Ty}
    (h' : T.find o'.clone = .ok (o'.entry body')) : o.source ≠ o'.clone := by
  intro heq
  obtain ⟨x, named, he, -⟩ := h.source
  rw [heq, h'] at he
  have hflags : (o'.entry body').flags = o.flags := congrArg TypeEntry.flags (Except.ok.inj he)
  have hwritable := h.writable
  rw [← hflags] at hwritable
  simp [entry] at hwritable

end Outline

/-! ## Work at a clone -/

/-- Between the sessions `t` and `u`, only the clone, its symbol and the scope of its symbol were
changed in place; nothing was named, remembered or registered. -/
structure Aside (o : Outline) (t u : Session) : Prop where
  /-- No name was made up. -/
  names : u.names = t.names
  /-- No variant was remembered or forgotten. -/
  memo : u.memo = t.memo
  /-- The same clones are pending. -/
  pending : u.pending = t.pending
  /-- Nothing was registered. -/
  package : u.package = t.package
  /-- Other types stay as they are. -/
  types : ∀ ty e, ty ≠ o.clone → t.types.find ty = .ok e → u.types.find ty = .ok e
  /-- Other symbols stay as they are. -/
  symbols : ∀ x named, x ≠ o.holder → t.symbols.find x = .ok named → u.symbols.find x = .ok named
  /-- All symbols stay declared as they are. -/
  declared : ∀ x named, t.symbols.find x = .ok named →
    ∃ named', u.symbols.find x = .ok named' ∧ named'.toDeclaration = named.toDeclaration
  /-- Other scopes stay as they are. -/
  scopes : ∀ id scope, id ≠ o.scope → t.symbols.findScope id = .ok scope →
    u.symbols.findScope id = .ok scope
  /-- Types are only added. -/
  types_le : t.types.entries.size ≤ u.types.entries.size
  /-- Symbols are only added. -/
  symbols_le : t.symbols.symbols.size ≤ u.symbols.symbols.size
  /-- Scopes are only added. -/
  scopes_le : t.symbols.scopes.size ≤ u.symbols.scopes.size

namespace Aside

variable {o o' : Outline} {t u v : Session}

theorem refl (o : Outline) (t : Session) : Aside o t t where
  names := rfl
  memo := rfl
  pending := rfl
  package := rfl
  types _ _ _ h := h
  symbols _ _ _ h := h
  declared _ named h := ⟨named, h, rfl⟩
  scopes _ _ _ h := h
  types_le := Nat.le_refl _
  symbols_le := Nat.le_refl _
  scopes_le := Nat.le_refl _

theorem trans (h : Aside o t u) (h' : Aside o u v) : Aside o t v where
  names := h'.names.trans h.names
  memo := h'.memo.trans h.memo
  pending := h'.pending.trans h.pending
  package := h'.package.trans h.package
  types ty e hne he := h'.types ty e hne (h.types ty e hne he)
  symbols x named hne hx := h'.symbols x named hne (h.symbols x named hne hx)
  declared x named hx := by
    obtain ⟨named', hx', hnamed'⟩ := h.declared x named hx
    obtain ⟨named'', hx'', hnamed''⟩ := h'.declared x named' hx'
    exact ⟨named'', hx'', hnamed''.trans hnamed'⟩
  scopes id scope hne hs := h'.scopes id scope hne (h.scopes id scope hne hs)
  types_le := Nat.le_trans h.types_le h'.types_le
  symbols_le := Nat.le_trans h.symbols_le h'.symbols_le
  scopes_le := Nat.le_trans h.scopes_le h'.scopes_le

/-- Symbols, scopes and types were added. -/
theorem grow {y : SymbolTable} {T : TypeTable} (hs : Grows t.symbols.symbols y.symbols)
    (hc : Grows t.symbols.scopes y.scopes) (hT : t.types.Grows T) :
    Aside o t { t with symbols := y, types := T } where
  names := rfl
  memo := rfl
  pending := rfl
  package := rfl
  types _ _ _ he := hT.find he
  symbols _ _ _ hx := SymbolTable.find_mono hs hx
  declared _ named hx := ⟨named, SymbolTable.find_mono hs hx, rfl⟩
  scopes _ _ _ hscope := SymbolTable.findScope_mono hc hscope
  types_le := StructuralTypes.Grows.size_le hT
  symbols_le := hs.size_le
  scopes_le := hc.size_le

/-- A symbol was added. -/
theorem addSymbol (kind : SymbolKind) (d : Declaration) :
    Aside o t { t with symbols := (t.symbols.add kind d).2 } :=
  grow (SymbolTable.grows_add _ _ _) (.refl _) (StructuralTypes.Grows.refl _)

/-- The clone was changed. -/
theorem setClone (e : TypeEntry) :
    Aside o t { t with types := ⟨t.types.entries.setIfInBounds o.clone.index e⟩ } :=
  { refl o t with
    types := fun _ _ hne he => TypeTable.find_set_of_ne hne _ he
    types_le := by simp }

/-- A name was bound in the scope. -/
theorem setScope (scope : Scope) :
    Aside o t { t with symbols :=
      { t.symbols with scopes := t.symbols.scopes.setIfInBounds o.scope.index scope } } :=
  { refl o t with
    scopes := fun id found hne hs => by
      have hi : o.scope.index ≠ id.index := fun heq => hne (congrArg ScopeId.mk heq.symm)
      rw [SymbolTable.findScope_eq_ok_iff] at hs ⊢
      rw [Array.getElem?_setIfInBounds_ne hi]
      exact hs
    scopes_le := by simp }

/-- The symbol was changed, but stays declared as it is. -/
theorem setHolder {named named' : Symbol} (hx : t.symbols.find o.holder = .ok named)
    (hnamed : named'.toDeclaration = named.toDeclaration) :
    Aside o t { t with symbols :=
      { t.symbols with symbols := t.symbols.symbols.setIfInBounds o.holder.index named' } } := by
  have hother : ∀ x found, x ≠ o.holder → t.symbols.find x = .ok found →
      ({ t.symbols with symbols := t.symbols.symbols.setIfInBounds o.holder.index named' } :
        SymbolTable).find x = .ok found := by
    intro x found hne hfound
    have hi : o.holder.index ≠ x.index := fun heq => hne (congrArg SymbolId.mk heq.symm)
    rw [SymbolTable.find_eq_ok_iff] at hfound ⊢
    rw [Array.getElem?_setIfInBounds_ne hi]
    exact hfound
  refine { refl o t with symbols := hother, declared := fun x found hfound => ?_, symbols_le := ?_ }
  · by_cases hne : x = o.holder
    · subst hne
      obtain rfl := Except.ok.inj (hx.symm.trans hfound)
      exact ⟨named', SymbolTable.find_set_self hx named', hnamed⟩
    · exact ⟨found, hother x found hne hfound, rfl⟩
  · simp

/-- Which clones are pending does not matter to the work. -/
theorem of_pending {p : CloneMap} (h : Aside o { t with pending := p } u) :
    Aside o t { u with pending := t.pending } where
  names := h.names
  memo := h.memo
  pending := rfl
  package := h.package
  types := h.types
  symbols := h.symbols
  declared := h.declared
  scopes := h.scopes
  types_le := h.types_le
  symbols_le := h.symbols_le
  scopes_le := h.scopes_le

end Aside

namespace Outline

variable {o o' : Outline} {body : Ty} {bindings : List (String × SymbolId)} {links : TypeLinks}
  {t u : Session}

/-- The parts of one clone are not those of another. -/
structure Apart (o o' : Outline) : Prop where
  /-- The clones differ. -/
  clone : o.clone ≠ o'.clone
  /-- The symbols differ. -/
  holder : o.holder ≠ o'.holder
  /-- The scopes differ. -/
  scope : o.scope ≠ o'.scope

/-- A clone stands whatever is done at another one. -/
theorem Stands.aside (h : o.Stands body bindings links t.symbols t.types) (ha : Aside o' t u)
    (hne : o.Apart o') {body' : Ty} (h' : t.types.find o'.clone = .ok (o'.entry body')) :
    o.Stands body bindings links u.symbols u.types :=
  h.keep (fun e he => ha.types _ e (h.source_ne h') he) ha.declared
    (fun e he => ha.types _ e hne.clone he) (fun named hx => ha.symbols _ named hne.holder hx)
    fun scope hs => ha.scopes _ scope hne.scope hs

/-- A clone stands whatever is added. -/
theorem Stands.extend (h : o.Stands body bindings links t.symbols t.types) (hx : t.Extends u) :
    o.Stands body bindings links u.symbols u.types :=
  h.grow hx.symbols hx.scopes hx.types

end Outline

/-! ## Wirings -/

/-- A clone of a structure with all that belongs to it. -/
structure Wiring extends Outline where
  /-- The fields of the clone and their symbols, in order. -/
  fields : List (Field × SymbolId)
  /-- The local name of the package that the structure is from. -/
  qualifier : String
  /-- The initializer of the clone. -/
  initializer : FunctionNode
deriving DecidableEq, Repr

namespace Wiring

/-- What is bound in the scope of the clone's symbol: the fields, and then the initializer. -/
def bindings (w : Wiring) : List (String × SymbolId) :=
  w.fields.map (fun f => (f.1.name, f.2)) ++ [(w.initializer.name.name, w.initializer.symbol)]

/-- The record of the initializer in the clone's symbol. -/
def link (w : Wiring) : InitializerLink :=
  { name := w.initializer.name.name, symbol := w.initializer.symbol, ty := w.initializer.ty
    span := w.initializer.span }

/-- The node of the clone: a record includes its source and is sealed as that is. -/
def node (w : Wiring) : TypeNode :=
  let node : StructureNode :=
    { span := w.stamp.span, ty := some w.clone, symbol := some w.holder
      fields := w.fields.map fun f => f.1.declared f.2, initializer := some w.initializer }
  match w.ty with
  | .record r => .record { node with references := [w.reference w.qualifier], sealed := r.sealed }
  | _ => .object node

/-- The definition of the clone, which is named as its symbol is. -/
def definition (w : Wiring) : TypeDefinition :=
  { name := ⟨w.name, w.stamp.span⟩, ty := some w.clone, symbol := w.holder, node := w.node
    flags := w.named.flags ∪ .only .readonly, span := w.stamp.span }

/-- The tables have the clone with all that belongs to it; the initializer is named after the clone
and the suffix. -/
structure Stands (w : Wiring) (suffix : String) (y : SymbolTable) (T : TypeTable) : Prop where
  /-- The clone is there, with its fields, its bindings and its initializer. -/
  outline : ∃ body : Ty, body.HasFields w.fields ∧
    w.toOutline.Stands body w.bindings { initializer := some w.link } y T
  /-- The fields have their symbols. -/
  symbols : ∀ f ∈ w.fields, f.1.symbol = some f.2
  /-- The initializer has its name. -/
  initializer : w.initializer.name.name = attachedName w.name suffix

variable {w : Wiring} {suffix : String} {t u : Session} {o : Outline}

/-- A clone stands whatever is done at another one. -/
theorem Stands.aside (h : w.Stands suffix t.symbols t.types) (ha : Aside o t u)
    (hne : w.toOutline.Apart o) {body : Ty} (ho : t.types.find o.clone = .ok (o.entry body)) :
    w.Stands suffix u.symbols u.types where
  outline := by
    obtain ⟨body', hfields, hstands⟩ := h.outline
    exact ⟨body', hfields, hstands.aside ha hne ho⟩
  symbols := h.symbols
  initializer := h.initializer

/-- A clone stands as the tables grow. -/
theorem Stands.grow {y z : SymbolTable} {T U : TypeTable} (h : w.Stands suffix y T)
    (hs : Grows y.symbols z.symbols) (hc : Grows y.scopes z.scopes) (hT : T.Grows U) :
    w.Stands suffix z U where
  outline := by
    obtain ⟨body, hfields, hstands⟩ := h.outline
    exact ⟨body, hfields, hstands.grow hs hc hT⟩
  symbols := h.symbols
  initializer := h.initializer

/-- The symbol of a clone is there. -/
theorem Stands.lt_size {y : SymbolTable} {T : TypeTable} (h : w.Stands suffix y T) :
    w.holder.index < y.symbols.size := by
  obtain ⟨_, -, hstands⟩ := h.outline
  exact (Array.getElem?_eq_some_iff.1 (SymbolTable.find_eq_ok_iff.1 hstands.holder)).1

end Wiring

end StructuralTypes
