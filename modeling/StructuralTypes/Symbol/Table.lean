import StructuralTypes.Symbol.Basic
import StructuralTypes.Symbol.Scope

/-!
# The symbol table

Owns every symbol and every scope; a handle is a position. Nothing is ever removed: a symbol that
gets a new scope leaves its old one behind, where only the handle of the old scope reaches it.

Every reading goes through `find` or `findScope`, so an operation that follows a handle beyond the
end of its table stops with `Stop.dangling`. Looking a name up goes outward from scope to scope.
Owners that go round in a circle make that search endless, which is its own outcome.

The operations are those of `SymbolTable`:
* `find` and `findScope` are `get` and `scope`, and `scopeOf` is `scope_of`;
* `add` is `alloc`, with the kind that each of the factories `create_variable_symbol` to
  `create_type_definition_symbol` gives it;
* `change` is what is written through `get_mut`;
* `openScope` is `new_scope`, `define` and `defineIn` are `define` and `define_in`;
* `lookup` is `lookup`, in steps of `enclosing`.

Results:
* `find_eq_ok_iff`, `find_add_self`, `find_add_of_find`: reading back, before and after an addition.
* `define_eq_ok`: binding a name changes one scope and nothing else.
-/

namespace StructuralTypes

/-- All symbols and scopes of one compilation. -/
structure SymbolTable where
  /-- The symbols, by handle. -/
  symbols : Array Symbol := #[]
  /-- The scopes, by handle. -/
  scopes : Array Scope := #[]
deriving DecidableEq, Repr, Inhabited

namespace SymbolTable

instance : EmptyCollection SymbolTable := ⟨{}⟩

/-! ## Reading -/

/-- The symbol with a handle. -/
def find (t : SymbolTable) (s : SymbolId) : Except Stop Symbol :=
  match t.symbols[s.index]? with
  | some symbol => .ok symbol
  | none => .error .dangling

/-- The scope with a handle. -/
def findScope (t : SymbolTable) (s : ScopeId) : Except Stop Scope :=
  match t.scopes[s.index]? with
  | some scope => .ok scope
  | none => .error .dangling

/-- The current scope of a symbol. -/
def scopeOf (t : SymbolTable) (s : SymbolId) : Except Stop ScopeId := do
  match (← t.find s).scope with
  | some scope => .ok scope
  | none => .error (Fault.withoutScope s)

/-- The current scope of the symbol that the owner of `scope` is declared in. -/
def enclosing (t : SymbolTable) (scope : Scope) : Except Stop (Option ScopeId) := do
  match (← t.find scope.owner).owner with
  | some outer => return (← t.find outer).scope
  | none => return none

/-- Look a name up in a scope and then outward, going through at most `fuel` scopes. -/
def lookupWithin (t : SymbolTable) (name : String) :
    (fuel : Nat) → ScopeId → Except Stop (Option SymbolId)
  | 0, _ => .error .unending
  | fuel + 1, scope => do
    let scope ← t.findScope scope
    match scope.get? name with
    | some found => return some found
    | none =>
      match ← t.enclosing scope with
      | some outer => t.lookupWithin name fuel outer
      | none => return none

/-- Look a name up in a scope and then outward through the enclosing scopes. A search that has gone
through more scopes than there are is in a circle. -/
def lookup (t : SymbolTable) (scope : ScopeId) (name : String) : Except Stop (Option SymbolId) :=
  t.lookupWithin name (t.scopes.size + 1) scope

/-! ## Writing -/

/-- Add a symbol at the end. -/
def add (t : SymbolTable) (kind : SymbolKind) (declaration : Declaration) :
    SymbolId × SymbolTable :=
  let id : SymbolId := ⟨t.symbols.size⟩
  (id, { t with symbols := t.symbols.push { declaration with id, kind } })

/-- Change a symbol in place. -/
def change (t : SymbolTable) (s : SymbolId) (f : Symbol → Symbol) : Except Stop SymbolTable := do
  let symbol ← t.find s
  return { t with symbols := t.symbols.setIfInBounds s.index (f symbol) }

/-- Give a symbol a new, empty scope. -/
def openScope (t : SymbolTable) (owner : SymbolId) : Except Stop (ScopeId × SymbolTable) := do
  let id : ScopeId := ⟨t.scopes.size⟩
  let t ← t.change owner fun symbol => { symbol with scope := some id }
  return (id, { t with scopes := t.scopes.push { id, owner } })

/-- Bind a name in a scope. -/
def define (t : SymbolTable) (scope : ScopeId) (name : String) (symbol : SymbolId) :
    Except Stop SymbolTable := do
  let found ← t.findScope scope
  let extended ← found.define name symbol
  return { t with scopes := t.scopes.setIfInBounds scope.index extended }

/-- Bind a name in the current scope of a symbol. -/
def defineIn (t : SymbolTable) (owner : SymbolId) (name : String) (symbol : SymbolId) :
    Except Stop SymbolTable := do
  t.define (← t.scopeOf owner) name symbol

/-! ## Reading back -/

theorem find_eq_ok_iff {t : SymbolTable} {s : SymbolId} {symbol : Symbol} :
    t.find s = .ok symbol ↔ t.symbols[s.index]? = some symbol := by
  unfold find
  cases t.symbols[s.index]? <;> simp

theorem findScope_eq_ok_iff {t : SymbolTable} {s : ScopeId} {scope : Scope} :
    t.findScope s = .ok scope ↔ t.scopes[s.index]? = some scope := by
  unfold findScope
  cases t.scopes[s.index]? <;> simp

/-- A new symbol reads back as it was declared. -/
theorem find_add_self (t : SymbolTable) (kind : SymbolKind) (d : Declaration) :
    (t.add kind d).2.find (t.add kind d).1 = .ok { d with id := ⟨t.symbols.size⟩, kind } := by
  simp [find_eq_ok_iff, add]

/-- An addition changes no symbol that was there. -/
theorem find_add_of_find {t : SymbolTable} {s : SymbolId} {symbol : Symbol}
    (h : t.find s = .ok symbol) (kind : SymbolKind) (d : Declaration) :
    (t.add kind d).2.find s = .ok symbol := by
  rw [find_eq_ok_iff] at h ⊢
  have hs := (Array.getElem?_eq_some_iff.1 h).1
  simp only [add, Array.getElem?_push, Nat.ne_of_lt hs, if_false, h]

/-- Binding a name extends one scope and changes nothing else. -/
theorem define_eq_ok {t t' : SymbolTable} {scope : ScopeId} {name : String} {symbol : SymbolId}
    (h : t.define scope name symbol = .ok t') :
    ∃ found extended, t.findScope scope = .ok found ∧ found.define name symbol = .ok extended ∧
      t' = { t with scopes := t.scopes.setIfInBounds scope.index extended } := by
  unfold define at h
  cases hf : t.findScope scope with
  | error e => simp [hf, bind, Except.bind] at h
  | ok found =>
    cases hd : found.define name symbol with
    | error e => simp [hf, hd, bind, Except.bind] at h
    | ok extended =>
      refine ⟨found, extended, rfl, hd, ?_⟩
      simpa [hf, hd, bind, Except.bind, pure, Except.pure, eq_comm] using h

end SymbolTable

end StructuralTypes
