import StructuralTypes.Proofs.Readonly.Visibility

/-!
# What a request leaves alone

A request writes in many places: it adds types, symbols and scopes, fills clones, binds names, links
initializers, registers definitions, and marks clones as pending. All that it changes in place it
has added itself, whether it is answered or fails, and no mark outlives it.

`Extends c c'` says that all of the compilation `c` is in `c'` as it was, and in its place.

Results:
* `attempt_eq`: a request does nothing, or what a search in a session of its package does.
* `Extends.attempt`, `Extends.attempts`: requests only add.
* **`attempt_extends`**: a request extends the compilation, and touches no package and no slot but
  its own.
-/

namespace StructuralTypes

namespace Compilation

variable {slots : CloneSlots} {c c' c'' : Compilation} {i : Nat} {package : Package} {t : Session}
  {r : CloneRequest} {v : TypeId}

/-- The compilation `c'` has all that `c` has, and as `c` has it. -/
structure Extends (c c' : Compilation) : Prop where
  /-- Symbols are only added. -/
  symbols : Grows c.symbols.symbols c'.symbols.symbols
  /-- Scopes are only added, and none of the old ones gets a binding. -/
  scopes : Grows c.symbols.scopes c'.symbols.scopes
  /-- Types are only added. -/
  types : c.types.Grows c'.types
  /-- No package is added. -/
  packages : c'.packages.size = c.packages.size
  /-- To a package, type definitions are added, and nothing else. -/
  package : ∀ (i : Nat) (p : Package), c.packages[i]? = some p → ∃ ds,
    c'.packages[i]? = some { p with typeDefinitions := p.typeDefinitions ++ ds }
  /-- What is remembered stays remembered. -/
  memo : ∀ slot ty v, (c.memo slot).get? ty = some v → (c'.memo slot).get? ty = some v
  /-- The same clones are pending. -/
  pending : ∀ slot, c'.pending slot = c.pending slot
  /-- Nodes stay as they are. -/
  nodes : c'.nodes = c.nodes
  /-- So do the settings. -/
  settings : c'.settings = c.settings

namespace Extends

theorem refl (c : Compilation) : c.Extends c where
  symbols := .refl _
  scopes := .refl _
  types := Grows.refl _
  packages := rfl
  package i p hp := ⟨[], by simpa using hp⟩
  memo _ _ _ h := h
  pending _ := rfl
  nodes := rfl
  settings := rfl

theorem trans (h : c.Extends c') (h' : c'.Extends c'') : c.Extends c'' where
  symbols := h.symbols.trans h'.symbols
  scopes := h.scopes.trans h'.scopes
  types := Grows.trans h.types h'.types
  packages := h'.packages.trans h.packages
  package i p hp := by
    obtain ⟨ds, hds⟩ := h.package i p hp
    obtain ⟨ds', hds'⟩ := h'.package i _ hds
    exact ⟨ds ++ ds', by simpa using hds'⟩
  memo slot ty v hv := h'.memo slot ty v (h.memo slot ty v hv)
  pending slot := (h'.pending slot).trans (h.pending slot)
  nodes := h'.nodes.trans h.nodes
  settings := h'.settings.trans h.settings

end Extends

theorem memo_keep (c : Compilation) (i : Nat) (slots : CloneSlots) (t : Session) (slot : Nat) :
    (c.keep i slots t).memo slot = if slot = slots.memo then t.memo else c.memo slot := by
  unfold memo keep
  rw [OrderedMap.get?_insert]
  split <;> rfl

theorem pending_keep (c : Compilation) (i : Nat) (slots : CloneSlots) (t : Session) (slot : Nat) :
    (c.keep i slots t).pending slot =
      if slot = slots.pending then t.pending else c.pending slot := by
  unfold pending keep
  rw [OrderedMap.get?_insert]
  split <;> rfl

/-- A session that has remembered nothing new leaves all slots as they are. -/
theorem memo_keep_of_eq {i : Nat} {t : Session} (h : t.memo = c.memo slots.memo) :
    (c.keep i slots t).memo = c.memo := by
  funext slot
  rw [memo_keep]
  split
  · rename_i hslot
    rw [h, hslot]
  · rfl

theorem pending_keep_of_eq {i : Nat} {t : Session} (h : t.pending = c.pending slots.pending) :
    (c.keep i slots t).pending = c.pending := by
  funext slot
  rw [pending_keep]
  split
  · rename_i hslot
    rw [h, hslot]
  · rfl

/-- Keeping a session that follows one in a package extends the compilation. -/
theorem extends_keep (hi : c.packages[i]? = some package)
    (hf : (c.session package slots).Follows t) : c.Extends (c.keep i slots t) where
  symbols := hf.keeps.symbols
  scopes := hf.keeps.scopes
  types := hf.keeps.types
  packages := Array.size_setIfInBounds
  package j p hp := by
    by_cases hj : i = j
    · subst hj
      obtain rfl := Option.some.inj (hi.symm.trans hp)
      obtain ⟨ds, hds⟩ := hf.keeps.definitions
      refine ⟨ds, ?_⟩
      show (c.packages.setIfInBounds i t.package)[i]? = _
      rw [Array.getElem?_setIfInBounds_self_of_lt (Array.getElem?_eq_some_iff.1 hi).1,
        hf.keeps.package, ← hds]
      rfl
    · refine ⟨[], ?_⟩
      show (c.packages.setIfInBounds i t.package)[j]? = _
      rw [Array.getElem?_setIfInBounds_ne hj, hp, List.append_nil]
  memo slot ty v hv := by
    rw [memo_keep]
    split
    · rename_i hslot
      subst hslot
      exact hf.keeps.memo ty v hv
    · exact hv
  pending slot := by
    rw [pending_keep]
    split
    · rename_i hslot
      subst hslot
      exact hf.pending
    · rfl
  nodes := rfl
  settings := rfl

/-- **A request does nothing, or what a search in a session of its package does.** -/
theorem attempt_eq (slots : CloneSlots) (c : Compilation) (r : CloneRequest) :
    attempt slots c r = c ∨ ∃ ctx n package t,
      c.packages[r.environment.package]? = some package ∧
        (Synth.readonlyWithin ctx n).Leads (c.session package slots) r.ty t ∧
          attempt slots c r = c.keep r.environment.package slots t := by
  unfold attempt
  cases hr : request slots r c with
  | ok v c' =>
    obtain ⟨package, t, hpackage, hv, rfl⟩ := request_eq_ok hr
    exact .inr ⟨_, _, package, t, hpackage, .inl ⟨v, r.stamp, hv⟩, rfl⟩
  | error x c' =>
    rcases request_eq_error hr with rfl | ⟨package, t, hpackage, hx, rfl⟩
    · exact .inl rfl
    · exact .inr ⟨_, _, package, t, hpackage, .inr ⟨x, r.stamp, hx⟩, rfl⟩

/-- A request only adds, whether it is answered or not. -/
theorem Extends.attempt (h : c.Extends c') (slots : CloneSlots) (r : CloneRequest) :
    c.Extends (attempt slots c' r) := by
  refine h.trans ?_
  rcases attempt_eq slots c' r with heq | ⟨ctx, n, package, t, hpackage, hleads, heq⟩
  · rw [heq]
    exact .refl c'
  · rw [heq]
    exact extends_keep hpackage ((Synth.readonlyWithin_keeps ctx n).leads hleads)

/-- So does any number of requests. -/
theorem Extends.attempts (h : c.Extends c') (slots : CloneSlots) (rs : List CloneRequest) :
    c.Extends (attempts slots rs c') := by
  induction rs using List.reverseRecOn with
  | nil => exact h
  | append_singleton rs r ih =>
    rw [attempts_append_singleton]
    exact ih.attempt slots r

/-- An answer is added to what was there. -/
theorem extends_of_request_eq_ok (hr : request slots r c = .ok v c') : c.Extends c' := by
  have h := (Extends.refl c).attempt slots r
  unfold Compilation.attempt at h
  rw [hr] at h
  exact h

/-- **A request extends the compilation, whether it is answered or not.** It touches no package but
that of its environment, and remembers variants in its own slot only. -/
theorem attempt_extends (slots : CloneSlots) (c : Compilation) (r : CloneRequest) :
    c.Extends (attempt slots c r) ∧
      (∀ i, i ≠ r.environment.package →
        (attempt slots c r).packages[i]? = c.packages[i]?) ∧
      ∀ slot, slot ≠ slots.memo → (attempt slots c r).memo slot = c.memo slot := by
  refine ⟨(Extends.refl c).attempt slots r, ?_⟩
  rcases attempt_eq slots c r with h | ⟨ctx, n, package, t, -, -, h⟩
  · rw [h]
    exact ⟨fun _ _ => rfl, fun _ _ => rfl⟩
  · rw [h]
    refine ⟨fun i hi => ?_, fun slot hslot => ?_⟩
    · exact Array.getElem?_setIfInBounds_ne (Ne.symm hi)
    · rw [memo_keep, if_neg hslot]

end Compilation

end StructuralTypes
