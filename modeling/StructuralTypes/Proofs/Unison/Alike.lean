import Mathlib.Data.List.Forall2
import StructuralTypes.Package.Basic
import StructuralTypes.Proofs.Writing.Table

/-!
# What is alike

The symbols, scopes and nodes that are made for a readonly variant show who asked for it: in names,
packages, owners and places. Two of them are `Alike` if they differ in nothing else. Whether a
symbol has a name at all is not left open, since a structure without a name is treated differently.

Results:
* `Pointwise.push`, `Pointwise.setIfInBounds`: arrays stay alike when alike things are written.
* `SymbolTable.Alike.change`, `SymbolTable.Alike.openScope`, **`SymbolTable.Alike.defineIn`**: so do
  symbol tables.
-/

namespace StructuralTypes

/-! ## Symbols -/

/-- The kind, without the name and the place of an initializer. -/
def SymbolKind.unlabeled : SymbolKind → SymbolKind
  | .type links =>
    .type { links with
      initializer := links.initializer.map fun i => { i with name := "", span := {} } }
  | kind => kind

/-- Only what is linked to a type can be labeled differently. -/
theorem SymbolKind.eq_or_of_unlabeled_eq {k k' : SymbolKind} (h : k'.unlabeled = k.unlabeled) :
    k' = k ∨ ∃ links links', k = .type links ∧ k' = .type links' ∧
      links'.definition = links.definition := by
  cases k <;> cases k' <;> simp_all [unlabeled]

/-- Two symbols differ in names, packages, owners and places only. -/
structure Symbol.Alike (a b : Symbol) : Prop where
  /-- Both have a name, or neither has. -/
  named : b.name.isEmpty = a.name.isEmpty
  /-- They have the same modifiers. -/
  flags : b.flags = a.flags
  /-- They are made up by the same. -/
  origin : b.origin = a.origin
  /-- They have the same type. -/
  ty : b.ty = a.ty
  /-- They have the same handle. -/
  id : b.id = a.id
  /-- They have the same of their own. -/
  kind : b.kind.unlabeled = a.kind.unlabeled
  /-- They have the same scope. -/
  scope : b.scope = a.scope

namespace Symbol.Alike

variable {a b : Symbol}

theorem refl (a : Symbol) : a.Alike a := ⟨rfl, rfl, rfl, rfl, rfl, rfl, rfl⟩

theorem functionType?_eq (h : a.Alike b) : b.functionType? = a.functionType? := by
  unfold functionType?
  rcases SymbolKind.eq_or_of_unlabeled_eq h.kind with hkind | ⟨l, l', ha, hb, -⟩
  · rw [hkind]
  · rw [ha, hb]

/-- An initializer is linked to under any name. -/
theorem mapTypeLinks (h : a.Alike b) (i : InitializerLink) (name : String) (span : Span) :
    (a.mapTypeLinks fun links => { links with initializer := some i }).Alike
      (b.mapTypeLinks fun links => { links with initializer := some { i with name, span } }) := by
  unfold Symbol.mapTypeLinks
  rcases SymbolKind.eq_or_of_unlabeled_eq h.kind with hkind | ⟨l, l', ha, hb, hdefinition⟩
  · rw [hkind]
    cases ha : a.kind with
    | type links => exact { h with kind := rfl }
    | _ => exact h
  · rw [ha, hb]
    exact { h with kind := by simp [SymbolKind.unlabeled, hdefinition] }

end Symbol.Alike

/-! ## Arrays -/

/-- Two arrays are equally long, and what they have at the same place is related. -/
structure Pointwise {α : Type} (R : α → α → Prop) (a b : Array α) : Prop where
  /-- They are equally long. -/
  size : b.size = a.size
  /-- Each element is related to the one at the same place. -/
  rel : ∀ (i : Nat) x y, a[i]? = some x → b[i]? = some y → R x y

namespace Pointwise

variable {α : Type} {R : α → α → Prop} {a b : Array α} {x y : α}

theorem refl (hR : ∀ x, R x x) (a : Array α) : Pointwise R a a where
  size := rfl
  rel i x y hx hy := by
    obtain rfl := Option.some.inj (hx.symm.trans hy)
    exact hR x

theorem push (h : Pointwise R a b) (hxy : R x y) : Pointwise R (a.push x) (b.push y) where
  size := by rw [Array.size_push, Array.size_push, h.size]
  rel i x' y' hx hy := by
    rw [Array.getElem?_push] at hx hy
    rw [h.size] at hy
    split at hx
    · rename_i hi
      rw [if_pos hi] at hy
      cases hx
      cases hy
      exact hxy
    · rename_i hi
      rw [if_neg hi] at hy
      exact h.rel i x' y' hx hy

theorem setIfInBounds (h : Pointwise R a b) (i : Nat) (hxy : R x y) :
    Pointwise R (a.setIfInBounds i x) (b.setIfInBounds i y) where
  size := by rw [Array.size_setIfInBounds, Array.size_setIfInBounds, h.size]
  rel j x' y' hx hy := by
    rw [Array.getElem?_setIfInBounds] at hx hy
    rw [h.size] at hy
    split at hx
    · rename_i hij
      rw [if_pos hij] at hy
      split at hx
      · rename_i hi
        rw [if_pos hi] at hy
        cases hx
        cases hy
        exact hxy
      · cases hx
    · rename_i hij
      rw [if_neg hij] at hy
      exact h.rel j x' y' hx hy

end Pointwise

/-! ## Symbol tables -/

/-- Two scopes bind the same symbols in the same order, under any names. -/
structure Scope.Alike (a b : Scope) : Prop where
  /-- They have the same handle. -/
  id : b.id = a.id
  /-- They are scopes of the same symbol. -/
  owner : b.owner = a.owner
  /-- They bind the same. -/
  bindings : b.bindings.values = a.bindings.values

theorem Scope.Alike.refl (a : Scope) : a.Alike a := ⟨rfl, rfl, rfl⟩

theorem Scope.Alike.define {a b a' b' : Scope} (h : a.Alike b) {name name' : String} {x : SymbolId}
    (ha : a.define name x = .ok a') (hb : b.define name' x = .ok b') : a'.Alike b' := by
  obtain ⟨hnew, rfl⟩ := Scope.define_eq_ok_iff.1 ha
  obtain ⟨hnew', rfl⟩ := Scope.define_eq_ok_iff.1 hb
  have hbindings := h.bindings
  refine { h with bindings := ?_ }
  simp only [OrderedMap.values, OrderedMap.entries_insert_of_not_mem hnew,
    OrderedMap.entries_insert_of_not_mem hnew', List.map_append] at hbindings ⊢
  rw [hbindings]
  rfl

/-- Two tables have alike symbols and scopes. -/
structure SymbolTable.Alike (S S' : SymbolTable) : Prop where
  /-- The symbols are alike. -/
  symbols : Pointwise Symbol.Alike S.symbols S'.symbols
  /-- The scopes are alike. -/
  scopes : Pointwise Scope.Alike S.scopes S'.scopes

namespace SymbolTable.Alike

variable {S S' U U' : SymbolTable} {x owner : SymbolId} {a b : Symbol}

theorem refl (S : SymbolTable) : S.Alike S where
  symbols := .refl Symbol.Alike.refl _
  scopes := .refl Scope.Alike.refl _

theorem find (h : S.Alike S') (ha : S.find x = .ok a) (hb : S'.find x = .ok b) : a.Alike b :=
  h.symbols.rel x.index a b (find_eq_ok_iff.1 ha) (find_eq_ok_iff.1 hb)

theorem add (h : S.Alike S') {k k' : SymbolKind} {d d' : Declaration}
    (hd : Symbol.Alike { d with id := ⟨S.symbols.size⟩, kind := k }
      { d' with id := ⟨S.symbols.size⟩, kind := k' }) :
    (S'.add k' d').1 = (S.add k d).1 ∧ (S.add k d).2.Alike (S'.add k' d').2 := by
  unfold SymbolTable.add
  rw [h.symbols.size]
  exact ⟨rfl, { h with symbols := h.symbols.push hd }⟩

theorem change (h : S.Alike S') {f f' : Symbol → Symbol}
    (hf : ∀ a b, a.Alike b → (f a).Alike (f' b)) (hU : S.change x f = .ok U)
    (hU' : S'.change x f' = .ok U') : U.Alike U' := by
  obtain ⟨a, ha, rfl⟩ := change_eq_ok hU
  obtain ⟨b, hb, rfl⟩ := change_eq_ok hU'
  exact { h with symbols := h.symbols.setIfInBounds x.index (hf a b (h.find ha hb)) }

theorem openScope (h : S.Alike S') {id id' : ScopeId} (hU : S.openScope x = .ok (id, U))
    (hU' : S'.openScope x = .ok (id', U')) : id' = id ∧ U.Alike U' := by
  obtain ⟨a, ha, rfl, rfl⟩ := exists_find_of_openScope hU
  obtain ⟨b, hb, rfl, rfl⟩ := exists_find_of_openScope hU'
  rw [h.scopes.size]
  exact ⟨rfl, h.symbols.setIfInBounds x.index { h.find ha hb with scope := rfl },
    h.scopes.push (.refl _)⟩

/-- **A symbol is bound in the same scope**, under any names. -/
theorem defineIn (h : S.Alike S') {name name' : String} (hU : S.defineIn owner name x = .ok U)
    (hU' : S'.defineIn owner name' x = .ok U') : U.Alike U' := by
  obtain ⟨id, hid, hU⟩ := defineIn_eq_ok hU
  obtain ⟨id', hid', hU'⟩ := defineIn_eq_ok hU'
  obtain ⟨a, ha, hscope⟩ := scopeOf_eq_ok_iff.1 hid
  obtain ⟨b, hb, hscope'⟩ := scopeOf_eq_ok_iff.1 hid'
  obtain rfl : id' = id :=
    Option.some.inj (hscope'.symm.trans ((h.find ha hb).scope.trans hscope))
  obtain ⟨found, extended, hfound, hextended, rfl⟩ := define_eq_ok hU
  obtain ⟨found', extended', hfound', hextended', rfl⟩ := define_eq_ok hU'
  have hfounds := h.scopes.rel id'.index found found' (findScope_eq_ok_iff.1 hfound)
    (findScope_eq_ok_iff.1 hfound')
  exact { h with scopes := h.scopes.setIfInBounds id'.index (hfounds.define hextended hextended') }

end SymbolTable.Alike

/-! ## Nodes and definitions -/

/-- Two declarations of a variable differ in names and places only. -/
structure VariableNode.Alike (a b : VariableNode) : Prop where
  /-- They have the same type. -/
  ty : b.ty = a.ty
  /-- They declare the same symbol. -/
  symbol : b.symbol = a.symbol

/-- Two functions differ in names and places only. -/
structure FunctionNode.Alike (a b : FunctionNode) : Prop where
  /-- They are the same symbol. -/
  symbol : b.symbol = a.symbol
  /-- They have the same type. -/
  ty : b.ty = a.ty
  /-- They are called on alike variables. -/
  receiver : Option.Rel VariableNode.Alike a.receiver b.receiver
  /-- They return the same. -/
  returns : b.returns = a.returns
  /-- They have the same modifiers. -/
  flags : b.flags = a.flags
  /-- Both belong to a type, or neither does. -/
  attached : b.attached = a.attached

/-- Two references mean the same type, under any names. -/
structure TypeReference.Alike (a b : TypeReference) : Prop where
  /-- They mean the same type. -/
  ty : b.ty = a.ty

/-- Two nodes of structures differ in names and places only. -/
structure StructureNode.Alike (a b : StructureNode) : Prop where
  /-- They are nodes of the same type. -/
  ty : b.ty = a.ty
  /-- It has the same symbol. -/
  symbol : b.symbol = a.symbol
  /-- They declare alike fields. -/
  fields : List.Forall₂ VariableNode.Alike a.fields b.fields
  /-- They include the fields of the same types. -/
  references : List.Forall₂ TypeReference.Alike a.references b.references
  /-- They have alike initializers. -/
  initializer : Option.Rel FunctionNode.Alike a.initializer b.initializer
  /-- Both have the declared fields only, or neither has. -/
  sealed : b.sealed = a.sealed
  /-- Both have to be looked at again, or neither has. -/
  analyzed : b.analyzed = a.analyzed

/-- Two type nodes are of structures of one kind, and differ in names and places only. -/
inductive TypeNode.Alike : TypeNode → TypeNode → Prop
  /-- Nodes of records. -/
  | record {a b : StructureNode} (h : a.Alike b) : Alike (.record a) (.record b)
  /-- Nodes of objects. -/
  | object {a b : StructureNode} (h : a.Alike b) : Alike (.object a) (.object b)

/-- Two definitions of structures differ in names and places only. -/
structure TypeDefinition.Alike (a b : TypeDefinition) : Prop where
  /-- They define the same type. -/
  ty : b.ty = a.ty
  /-- They are registered under the same symbol. -/
  symbol : b.symbol = a.symbol
  /-- Their nodes are alike. -/
  node : a.node.Alike b.node
  /-- They have the same modifiers. -/
  flags : b.flags = a.flags

end StructuralTypes
