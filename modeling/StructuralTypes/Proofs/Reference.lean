import Mathlib.Logic.Relation
import StructuralTypes.Proofs.Growth

/-!
# Chains of references

A reference leads to its target, and a chain of references either ends at a type that is none or
goes round in a circle. `Resolves T n ty base` says that `n` references lead from `ty` to `base`,
where the chain ends. Such a chain is shorter than the table, since a type met twice would be met
for ever, so the bound of `TypeTable.implied` cuts no chain that ends.

Results:
* **`implied_eq_ok_iff_resolves`**: a type that is no reference is implied exactly by the types
  whose chain ends there.
* `Resolves.grows`: additions do not break a chain.
-/

namespace StructuralTypes

namespace TypeTable

variable {T U : TypeTable} {ty target base : TypeId} {n m : Nat}

/-- `ty` is a reference to `target`. -/
def RefersTo (T : TypeTable) (ty target : TypeId) : Prop :=
  ∃ e, T.find ty = .ok e ∧ e.ty = .ref target

/-- `n` references lead from `ty` to `base`, and `base` is no reference. -/
inductive Resolves (T : TypeTable) : Nat → TypeId → TypeId → Prop
  | here {ty : TypeId} {e : TypeEntry} (found : T.find ty = .ok e)
      (stops : ∀ target, e.ty ≠ .ref target) : Resolves T 0 ty ty
  | next {n : Nat} {ty target base : TypeId} (refers : T.RefersTo ty target)
      (rest : Resolves T n target base) : Resolves T (n + 1) ty base

/-- A type that no chain of references passes through. -/
theorem Resolves.base_found (h : T.Resolves n ty base) :
    ∃ e, T.find base = .ok e ∧ ∀ target, e.ty ≠ .ref target := by
  induction h with
  | here found stops => exact ⟨_, found, stops⟩
  | next _ _ ih => exact ih

/-- A chain has one length and one end. -/
theorem Resolves.unique {base' : TypeId} (h : T.Resolves n ty base) (h' : T.Resolves m ty base') :
    n = m ∧ base = base' := by
  induction h generalizing m with
  | here found stops =>
    cases h' with
    | here => exact ⟨rfl, rfl⟩
    | next refers _ =>
      obtain ⟨e, he, hr⟩ := refers
      obtain rfl := Except.ok.inj (found.symm.trans he)
      exact absurd hr (stops _)
  | next refers _ ih =>
    obtain ⟨e, he, hr⟩ := refers
    cases h' with
    | here found stops =>
      obtain rfl := Except.ok.inj (found.symm.trans he)
      exact absurd hr (stops _)
    | next refers' rest' =>
      obtain ⟨e', he', hr'⟩ := refers'
      obtain rfl := Except.ok.inj (he.symm.trans he')
      obtain rfl := Ty.ref.inj (hr.symm.trans hr')
      obtain ⟨rfl, rfl⟩ := ih rest'
      exact ⟨rfl, rfl⟩

/-- The types along a chain that ends are all different, for each is at its own distance from the
end. -/
theorem Resolves.trail (h : T.Resolves n ty base) :
    ∃ l : List Nat, l.length = n + 1 ∧ l.Nodup ∧
      ∀ i ∈ l, i < T.entries.size ∧ ∃ m ≤ n, T.Resolves m ⟨i⟩ base := by
  induction h with
  | @here ty e found stops =>
    refine ⟨[ty.index], rfl, by simp, ?_⟩
    intro i hi
    obtain rfl := List.mem_singleton.1 hi
    exact ⟨lt_of_find found, 0, Nat.le_refl 0, .here found stops⟩
  | @next n ty target base refers rest ih =>
    obtain ⟨l, hlen, hnodup, hl⟩ := ih
    have hty : T.Resolves (n + 1) ty base := .next refers rest
    refine ⟨ty.index :: l, by simp [hlen], List.nodup_cons.2 ⟨fun hmem => ?_, hnodup⟩, ?_⟩
    · obtain ⟨-, m, hm, hr⟩ := hl _ hmem
      have := (hr.unique hty).1
      omega
    · intro i hi
      obtain rfl | hi := List.mem_cons.1 hi
      · obtain ⟨e, he, -⟩ := refers
        exact ⟨lt_of_find he, n + 1, Nat.le_refl _, hty⟩
      · obtain ⟨hlt, m, hm, hr⟩ := hl i hi
        exact ⟨hlt, m, by omega, hr⟩

/-- **A chain that ends is shorter than the table.** -/
theorem Resolves.lt_size (h : T.Resolves n ty base) : n < T.entries.size := by
  obtain ⟨l, hlen, hnodup, hl⟩ := h.trail
  have hsub : l ⊆ List.range T.entries.size := fun i hi => List.mem_range.2 (hl i hi).1
  have := hnodup.length_le_of_subset hsub
  rw [hlen, List.length_range] at this
  omega

/-- A chain that ends may begin anywhere. -/
theorem Resolves.of_chain (h : T.Resolves n target base)
    (hchain : Relation.ReflTransGen T.RefersTo ty target) : ∃ m, T.Resolves m ty base := by
  induction hchain using Relation.ReflTransGen.head_induction_on with
  | refl => exact ⟨n, h⟩
  | head hstep _ ih =>
    obtain ⟨m, hm⟩ := ih
    exact ⟨m + 1, .next hstep hm⟩

/-! ## The type that decides -/

theorem Resolves.impliedWithin_eq (h : T.Resolves n ty base) {fuel : Nat} (hn : n ≤ fuel) :
    T.impliedWithin fuel ty = .ok base := by
  induction h generalizing fuel with
  | @here ty e found stops =>
    cases fuel with
    | zero => rfl
    | succ fuel =>
      simp only [impliedWithin, found, bind, Except.bind]
      rfl
  | next refers _ ih =>
    obtain ⟨e, he, hr⟩ := refers
    obtain ⟨fuel, rfl⟩ : ∃ k, fuel = k + 1 := ⟨fuel - 1, by omega⟩
    simp only [impliedWithin, he, hr, bind, Except.bind]
    exact ih (by omega)

/-- The bounded search stays on the chain, and ends it unless it ends on a reference. -/
theorem impliedWithin_eq_ok {fuel : Nat} (h : T.impliedWithin fuel ty = .ok base) :
    Relation.ReflTransGen T.RefersTo ty base ∧
      ∀ e, T.find base = .ok e → (∀ target, e.ty ≠ .ref target) → ∃ n, T.Resolves n ty base := by
  induction fuel generalizing ty with
  | zero =>
    obtain rfl := Except.ok.inj h
    exact ⟨.refl, fun e he hr => ⟨0, .here he hr⟩⟩
  | succ fuel ih =>
    rw [impliedWithin] at h
    cases hf : T.find ty with
    | error e => simp [hf, bind, Except.bind] at h
    | ok e =>
      simp only [hf, bind, Except.bind] at h
      split at h
      · rename_i target hr
        have hstep : T.RefersTo ty target := ⟨e, hf, hr⟩
        obtain ⟨hchain, hends⟩ := ih h
        exact ⟨.head hstep hchain, fun e' he' hr' =>
          (hends e' he' hr').imp' (· + 1) fun n hn => .next hstep hn⟩
      · obtain rfl := Except.ok.inj h
        exact ⟨.refl, fun e' he' hr' => ⟨0, .here he' hr'⟩⟩

/-- The decisive type is the one that the chain ends at, if it ends. -/
theorem Resolves.implied_eq (h : T.Resolves n ty base) : T.implied ty = .ok base :=
  h.impliedWithin_eq (Nat.le_of_lt h.lt_size)

theorem Resolves.eq_of_implied {base' : TypeId} (h : T.Resolves n ty base)
    (h' : T.implied ty = .ok base') : base' = base :=
  Except.ok.inj (h'.symm.trans h.implied_eq)

/-- **A type that is no reference is implied exactly by the types whose chain ends there.** -/
theorem implied_eq_ok_iff_resolves {e : TypeEntry} (he : T.find base = .ok e)
    (hr : ∀ target, e.ty ≠ .ref target) : T.implied ty = .ok base ↔ ∃ n, T.Resolves n ty base :=
  ⟨fun h => (impliedWithin_eq_ok h).2 e he hr, fun ⟨_, h⟩ => h.implied_eq⟩

/-- The decisive type is on the chain, also when the chain goes round in a circle. -/
theorem chain_of_implied (h : T.implied ty = .ok base) :
    Relation.ReflTransGen T.RefersTo ty base :=
  (impliedWithin_eq_ok h).1

/-- If the decisive type is there, so is the type. -/
theorem exists_find_of_implied {e : TypeEntry} (h : T.implied ty = .ok base)
    (he : T.find base = .ok e) : ∃ e', T.find ty = .ok e' := by
  rcases (chain_of_implied h).cases_head with rfl | ⟨_, hrefers, -⟩
  · exact ⟨e, he⟩
  · exact hrefers.imp fun _ hr => hr.1

/-- The type stands for one that an earlier pass failed to resolve. -/
def Failed (T : TypeTable) (ty : TypeId) : Prop :=
  ∃ n base e, T.Resolves n ty base ∧ T.find base = .ok e ∧ e.ty = .semanticError

/-- A type has failed to resolve if the type that decides says so. -/
theorem failed_iff {e : TypeEntry} (himplied : T.implied ty = .ok base)
    (he : T.find base = .ok e) : T.Failed ty ↔ e.ty = .semanticError := by
  constructor
  · rintro ⟨n, base', e', hr, he', hty⟩
    have himplied' := (implied_eq_ok_iff_resolves he' (by simp [hty])).2 ⟨n, hr⟩
    obtain rfl := Except.ok.inj (himplied.symm.trans himplied')
    rw [Except.ok.inj (he.symm.trans he'), hty]
  · intro hty
    obtain ⟨n, hr⟩ := (implied_eq_ok_iff_resolves he (by simp [hty])).1 himplied
    exact ⟨n, base, e, hr, he, hty⟩

/-! ## Additions -/

theorem RefersTo.grows (hg : T.Grows U) (h : T.RefersTo ty target) : U.RefersTo ty target :=
  h.imp fun _ he => ⟨hg.find he.1, he.2⟩

theorem Resolves.grows (hg : T.Grows U) (h : T.Resolves n ty base) : U.Resolves n ty base := by
  induction h with
  | here found stops => exact .here (hg.find found) stops
  | next refers _ ih => exact .next (refers.grows hg) ih

theorem Failed.grows (hg : T.Grows U) (h : T.Failed ty) : U.Failed ty := by
  obtain ⟨n, base, e, hr, he, hty⟩ := h
  exact ⟨n, base, e, hr.grows hg, hg.find he, hty⟩

/-- What was there reads back the same way before an addition. -/
theorem Grows.find_of_lt (hg : T.Grows U) {e : TypeEntry} (hf : U.find ty = .ok e)
    (hlt : ty.index < T.entries.size) : T.find ty = .ok e := by
  rw [find_eq_ok_iff] at hf ⊢
  rw [← StructuralTypes.Grows.getElem?_eq hg hlt]
  exact hf

end TypeTable

end StructuralTypes
