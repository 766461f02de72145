import StructuralTypes.Proofs.Ownership.Clone
import StructuralTypes.Proofs.Readonly.Naming

/-!
# The owners of a request

A request names an owner, and its environment has one, too: that of the scope. The symbols of the
structures that are cloned belong to one or the other, and where a symbol stands among those that
were added tells to which.

Results:
* `AddsType.owner`: the owner of each symbol of a clone.
* **`request_owner_iff`**: when it is the owner that was asked for.
-/

namespace StructuralTypes

namespace Compilation

variable {c c' : Compilation} {slots : CloneSlots} {r : CloneRequest} {v : TypeId} {y : SymbolId}
  {a : Symbol}

/-- Between `c` and `c'` the symbol `y` of a type has been added, and `a` is what became of it. -/
structure AddsType (c c' : Compilation) (y : SymbolId) (a : Symbol) : Prop where
  /-- It is new. -/
  new : c.symbols.symbols.size ≤ y.index
  /-- It is there. -/
  found : c'.symbols.find y = .ok a
  /-- It is the symbol of a type. -/
  links : a.typeLinks?.isSome

/-- What was cloned for a field, at whatever depth, stands between the symbol of the clone that has
the field and the symbol of the field. -/
def ForField (c c' : Compilation) (y : SymbolId) : Prop :=
  c'.symbols.Enclosed c'.types c.symbols.symbols.size y

/-- **What was cloned for a field belongs to the owner of the scope, and everything else to the
owner that was asked for.** -/
theorem AddsType.owner (h : c.AddsType c' y a) (hr : request slots r c = .ok v c') :
    (c.ForField c' y → a.owner = some r.environment.scopeOwner) ∧
      (¬c.ForField c' y → a.owner = some r.stamp.owner) := by
  obtain ⟨package, t, -, hrun, rfl⟩ := request_eq_ok hr
  have howned := Synth.owning_readonlyVariant _ _ _ _ _ _ hrun
  obtain ⟨owner, ty, xs, hstructure, -⟩ := howned.made y h.new ⟨a, h.found, h.links⟩
  have howner : a.owner = some owner := by
    obtain ⟨b, e, hb, -, howner, -⟩ := hstructure
    obtain rfl := Except.ok.inj (h.found.symm.trans hb)
    exact howner
  rw [howner]
  exact ⟨fun hfield => congrArg some (howned.enclosed y owner ty xs h.new hstructure hfield),
    fun hother => congrArg some (howned.others y owner ty xs h.new hstructure hother)⟩

/-- **The symbol of a clone belongs to the owner that was asked for, or to the owner of the scope.
It belongs to the former exactly if these are the same, or the clone was not made for a field.** -/
theorem request_owner_iff (c c' : Compilation) (slots : CloneSlots) (r : CloneRequest) (v : TypeId)
    (y : SymbolId) (a : Symbol) (hr : request slots r c = .ok v c') (h : c.AddsType c' y a) :
    (a.owner = some r.stamp.owner ∨ a.owner = some r.environment.scopeOwner) ∧
      (a.owner = some r.stamp.owner ↔
        r.environment.scopeOwner = r.stamp.owner ∨ ¬c.ForField c' y) := by
  obtain ⟨hfield, hother⟩ := h.owner hr
  by_cases henclosed : c.ForField c' y
  · rw [hfield henclosed]
    refine ⟨.inr rfl, ?_⟩
    simp [henclosed]
  · rw [hother henclosed]
    exact ⟨.inl rfl, iff_of_true rfl (.inr henclosed)⟩

/-- A record with a field of another record, and one more symbol. -/
def delegated : Compilation :=
  app [("other", Builtin.nil), ("B", ⟨14⟩), ("A", ⟨15⟩)]
    [appRecord ⟨2⟩ [], appRecord ⟨3⟩ [("b", ⟨14⟩)]]

/-- A request that this symbol should own the clones. -/
def delegatedRequest : CloneRequest :=
  { appRequest ⟨15⟩ with stamp := ⟨{}, ⟨0⟩, ⟨1⟩⟩ }

/-- Two records are cloned: the symbol of the first belongs to this symbol, and that of the second
does not. -/
theorem delegated_request : ∃ v c', request {} delegatedRequest delegated = .ok v c' ∧
    (∃ a, delegated.AddsType c' ⟨4⟩ a ∧ a.owner = some ⟨1⟩) ∧
      ∃ a, delegated.AddsType c' ⟨5⟩ a ∧ a.owner = some ⟨0⟩ := by
  have hrun : EndsWell (fun _ c' =>
      (c'.symbols.symbols[4]?.map fun a => (a.typeLinks?.isSome, a.owner)) = some (true, some ⟨1⟩) ∧
        (c'.symbols.symbols[5]?.map fun a => (a.typeLinks?.isSome, a.owner)) =
          some (true, some ⟨0⟩))
      (request {} delegatedRequest delegated) := by
    decide +kernel
  obtain ⟨v, c', hc', hfirst, hsecond⟩ := hrun
  have hadds : ∀ y owner : SymbolId, delegated.symbols.symbols.size ≤ y.index →
      (c'.symbols.symbols[y.index]?.map fun a => (a.typeLinks?.isSome, a.owner)) =
        some (true, some owner) → ∃ a, delegated.AddsType c' y a ∧ a.owner = some owner := by
    intro y owner hle h
    obtain ⟨a, ha, heq⟩ := Option.map_eq_some_iff.1 h
    obtain ⟨hlinks, howner⟩ := Prod.mk.inj heq
    exact ⟨a, ⟨hle, SymbolTable.find_eq_ok_iff.2 ha, hlinks⟩, howner⟩
  exact ⟨v, c', hc', hadds ⟨4⟩ _ (by decide) hfirst, hadds ⟨5⟩ _ (by decide) hsecond⟩

/-- The record that is cloned for the field has another owner than was asked for. -/
theorem delegated_disowned : delegated.Closed ∧ ∃ v c' y a,
    request {} delegatedRequest delegated = .ok v c' ∧ delegated.AddsType c' y a ∧
      a.owner ≠ some delegatedRequest.stamp.owner := by
  obtain ⟨v, c', hc', -, a, ha, howner⟩ := delegated_request
  exact ⟨by decide +kernel, v, c', _, a, hc', ha, by rw [howner]; decide⟩

/-- The record that was asked for has the right owner. -/
theorem delegated_owned : ∃ v c' y a,
    request {} delegatedRequest delegated = .ok v c' ∧ delegated.AddsType c' y a ∧
      a.owner = some delegatedRequest.stamp.owner := by
  obtain ⟨v, c', hc', ⟨a, ha, -⟩, -⟩ := delegated_request
  obtain ⟨-, hiff⟩ := request_owner_iff delegated c' {} delegatedRequest v ⟨4⟩ a hc' ha
  refine ⟨v, c', ⟨4⟩, a, hc', ha, hiff.2 (.inr ?_)⟩
  -- no symbol of a clone comes before it
  rintro ⟨z, owner, ty, xs, x, hz, -, -, hlt, -⟩
  have hsize : delegated.symbols.symbols.size = 4 := by decide
  rw [hsize] at hz
  exact absurd hlt (Nat.not_lt_of_le hz)

end Compilation

end StructuralTypes
