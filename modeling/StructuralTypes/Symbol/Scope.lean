import StructuralTypes.Fault
import StructuralTypes.OrderedMap

/-!
# Scopes

A scope holds the names that one symbol introduces, in the order of their definition. A name is
bound once and for all.

Modelled are `define` and `get` of `Scope`. What goes through the names of a scope reads its
`bindings`.

Results:
* `define_eq_ok_iff`: a definition succeeds exactly for a new name, and then appends its binding.
* `define_eq_error_iff`: otherwise it reports the symbol that the name is bound to.
-/

namespace StructuralTypes

/-- The names that one symbol introduces. -/
structure Scope where
  /-- Its own handle. -/
  id : ScopeId
  /-- The symbol whose scope it is, or was before the symbol got a newer one. -/
  owner : SymbolId
  /-- The bindings, in the order of their definition. -/
  bindings : OrderedMap String SymbolId := ∅
deriving DecidableEq, Repr

namespace Scope

/-- The symbol that this scope itself binds a name to. -/
def get? (s : Scope) (name : String) : Option SymbolId := s.bindings.get? name

/-- Bind a name that is not bound yet. -/
def define (s : Scope) (name : String) (symbol : SymbolId) : Except Stop Scope :=
  match s.get? name with
  | some existing => .error (Fault.nameTaken name s.owner existing)
  | none => .ok { s with bindings := s.bindings.insert name symbol }

theorem define_eq_ok_iff {s s' : Scope} {name : String} {symbol : SymbolId} :
    s.define name symbol = .ok s' ↔
      name ∉ s.bindings.keys ∧ s' = { s with bindings := s.bindings.insert name symbol } := by
  rw [← OrderedMap.get?_eq_none_iff, define, get?]
  cases s.bindings.get? name <;> simp [eq_comm]

theorem define_eq_error_iff {s : Scope} {name : String} {symbol : SymbolId} {e : Stop} :
    s.define name symbol = .error e ↔
      ∃ existing, (name, existing) ∈ s.bindings.entries ∧
        e = Fault.nameTaken name s.owner existing := by
  simp only [← OrderedMap.get?_eq_some_iff, define, get?]
  cases s.bindings.get? name <;> simp [eq_comm]

end Scope

end StructuralTypes
