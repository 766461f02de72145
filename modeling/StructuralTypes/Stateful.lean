import StructuralTypes.Fault

/-!
# Operations on a state

An operation works on a state of some kind: on the session of a synthesis, or on a whole
compilation. It ends with a result or stops, and leaves a state either way, since later operations
can see what it has done before it stopped.

Results:
* `bind_eq_ok_iff`, `bind_eq_error_iff`: how two steps in a row end.
* `reading_eq_ok_iff`, `reading_eq_error_iff`: a reading leaves the state as it is, in both cases.
-/

namespace StructuralTypes

/-- An operation on a state. -/
abbrev Stateful (σ : Type) := EStateM Stop σ

variable {σ α β : Type} {x : Stateful σ α} {s t : σ} {a : α} {e : Stop}

/-- Stop at once. -/
def stop {σ α : Type} (e : Stop) : Stateful σ α := fun s => .error e s

/-- Report a fault. -/
def fail {σ α : Type} (f : Fault) : Stateful σ α := stop f

/-- Read something off the state. -/
def reading {σ α : Type} (read : σ → Except Stop α) : Stateful σ α := fun s =>
  match read s with
  | .ok a => .ok a s
  | .error e => .error e s

/-- Two steps end well if both do, the second one from where the first one ended. -/
theorem bind_eq_ok_iff {f : α → Stateful σ β} {b : β} :
    (x >>= f) s = .ok b t ↔ ∃ a u, x s = .ok a u ∧ f a u = .ok b t := by
  show EStateM.bind x f s = _ ↔ _
  unfold EStateM.bind
  cases x s <;> simp [and_assoc]

/-- Two steps stop where the first one stops, or where the second one does. -/
theorem bind_eq_error_iff {f : α → Stateful σ β} :
    (x >>= f) s = .error e t ↔
      x s = .error e t ∨ ∃ a u, x s = .ok a u ∧ f a u = .error e t := by
  show EStateM.bind x f s = _ ↔ _
  unfold EStateM.bind
  cases x s <;> simp [and_assoc]

theorem reading_eq_ok_iff {read : σ → Except Stop α} :
    reading read s = .ok a t ↔ read s = .ok a ∧ t = s := by
  unfold reading
  cases read s <;> simp [eq_comm]

theorem reading_eq_error_iff {read : σ → Except Stop α} :
    reading read s = .error e t ↔ read s = .error e ∧ t = s := by
  unfold reading
  cases read s <;> simp [eq_comm]

end StructuralTypes
