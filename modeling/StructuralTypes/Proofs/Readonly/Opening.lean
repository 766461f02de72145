import StructuralTypes.Proofs.Population.Field
import StructuralTypes.Proofs.Readonly.Construction

/-!
# The shell of a clone

A clone starts as a shell: a structure without fields, with a symbol that has an empty scope. Making
one fails only if the source is out of range.

Results:
* **`ends_openClone_starts`**: a shell is made, or nothing but a name.
* `Starts.find_clone`: its type.
-/

namespace StructuralTypes

open Synth

/-- A shell has no fields. -/
theorem Synth.Blueprint.fields?_shell (b : Blueprint) : b.shell.fields? = some ∅ := by
  unfold shell
  split <;> rfl

/-- From `s` to `t`, the shell of a clone has been made after `b`, with the symbol `z`, which
belongs to `owner` and has an empty scope. -/
structure Session.Starts (s t : Session) (b : Blueprint) (owner : SymbolId) (clone : TypeId)
    (z : SymbolId) : Prop where
  /-- The shell is a new type. -/
  clone_index : clone.index = s.types.entries.size
  /-- Its symbol is a new symbol. -/
  holder_index : z.index = s.symbols.symbols.size
  /-- No other symbol is added. -/
  symbols : ∃ a, t.symbols.symbols = s.symbols.symbols.push a ∧ a.typeLinks?.isSome ∧
    a.owner = some owner ∧ a.ty = some clone
  /-- No other type is added. -/
  types : ∃ e, t.types.entries = s.types.entries.push e ∧ e.ty = b.shell ∧ e.symbol = some z
  /-- The scope is empty. -/
  scope : t.symbols.bindings? z = some ∅
  /-- Nothing is registered. -/
  package : t.package = s.package

namespace Session.Starts

variable {s t : Session} {b : Blueprint} {owner z : SymbolId} {clone : TypeId}

theorem grows (h : s.Starts t b owner clone z) :
    Grows s.symbols.symbols t.symbols.symbols ∧ s.types.Grows t.types := by
  obtain ⟨a, hsymbols, -⟩ := h.symbols
  obtain ⟨e, htypes, -⟩ := h.types
  constructor
  · rw [hsymbols]
    exact .push _ _
  · unfold TypeTable.Grows
    rw [htypes]
    exact .push _ _

/-- The entry of the shell. -/
theorem find_clone (h : s.Starts t b owner clone z) :
    ∃ e, t.types.find clone = .ok e ∧ e.ty = b.shell ∧ e.symbol = some z := by
  obtain ⟨e, htypes, hshell, hsymbol⟩ := h.types
  refine ⟨e, ?_, hshell, hsymbol⟩
  rw [TypeTable.find_eq_ok_iff, h.clone_index, htypes, Array.getElem?_push_size]

/-- What is pending does not matter. -/
theorem aside (h : s.Starts t b owner clone z) (pending : CloneMap) :
    s.Starts { t with pending } b owner clone z :=
  ⟨h.clone_index, h.holder_index, h.symbols, h.types, h.scope, h.package⟩

end Session.Starts

namespace Synth

variable {s : Session}

/-- **The shell of a clone is made, and its symbol belongs to the owner of the stamp.** -/
theorem ends_openClone_starts (stamp : Stamp) (source : TypeId) (named : Symbol) (b : Blueprint) :
    Ends (openClone stamp source named b) s (fun r t => s.Starts t b stamp.owner r.1 r.2)
      fun _ t => ∃ names, t = { s with names } := by
  unfold openClone
  refine ends_bind.2 ((ends_cloneName (E := fun _ _ => False) stamp named).imp ?_
    fun _ _ h => h.elim)
  rintro name _ ⟨-, names, rfl⟩
  unfold addReadonly
  refine ends_bind.2 (ends_bind.2 (ends_reading.2 ⟨fun e _ => ?_, fun _ _ => ⟨names, rfl⟩⟩))
  refine ends_addType.2 (ends_bind.2 (ends_addSymbol.2 ?_))
  -- the new symbol gets a scope, and the new type gets the symbol
  have hsymbol := SymbolTable.find_add_self s.symbols (.type {})
    { name, package := stamp.package, flags := named.flags ∪ .only .readonly, origin := .virtual
      span := stamp.span, ty := some ⟨s.types.entries.size⟩, owner := some stamp.owner }
  have hentry := TypeTable.find_add_self s.types
    { ty := b.shell, flags := e.flags ∪ .only .readonly }
  refine ends_bind.2 ((ends_of_ok (openScope_eq hsymbol)).2 ?_)
  refine ends_bind.2 ((ends_of_ok (changeType_eq hentry _)).2 (ends_pure.2 ?_))
  refine ⟨rfl, rfl, ⟨_, Grows.setIfInBounds_push _ _ _, rfl, rfl, rfl⟩,
    ⟨_, Grows.setIfInBounds_push _ _ _, rfl, rfl⟩, ?_, rfl⟩
  exact SymbolTable.bindings?_eq_some_iff.2 ⟨_, _, _, SymbolTable.find_set_self hsymbol _, rfl,
    SymbolTable.findScope_eq_ok_iff.2 Array.getElem?_push_size, rfl⟩

end Synth

end StructuralTypes
