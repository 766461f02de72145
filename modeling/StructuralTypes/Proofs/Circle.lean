import Mathlib.Data.Fintype.Pigeonhole
import Mathlib.Dynamics.PeriodicPts.Defs
import StructuralTypes.Proofs.Range.Handle
import StructuralTypes.Proofs.Reference

/-!
# Circles of references

In a table whose references all lead to types that are there, following references never gets
stuck. After as many steps as the table has types some type has been met twice, and from there on
the chain goes round. So the bound of `TypeTable.implied` is met exactly: a chain that ends is
followed to its end, and a chain that does not end is left on its circle, not before it.

Results:
* `impliedWithin_eq_iterate`: the bounded search is the iteration of one step, `TypeTable.leads`.
* `transGen_of_unending`: after as many steps as there are types, a chain without end is on its
  circle.
* **`implied_resolves`**: every chain that ends is resolved to its end, by all the types along it
  and in all larger tables; from every other chain, the type found lies on the circle.
-/

namespace StructuralTypes

namespace TypeTable

open Relation

variable {T : TypeTable} {b : Extent} {ty target base : TypeId}

/-- A type at which chains of references end. -/
def Stops (T : TypeTable) (ty : TypeId) : Prop :=
  ∃ e, T.find ty = .ok e ∧ ∀ target, e.ty ≠ .ref target

/-- The type that a reference leads to. Every other type leads to itself. -/
def leads (T : TypeTable) (ty : TypeId) : TypeId :=
  match T.find ty with
  | .ok { ty := .ref target, .. } => target
  | _ => ty

theorem RefersTo.leads_eq (h : T.RefersTo ty target) : T.leads ty = target := by
  obtain ⟨⟨_, _, _⟩, he, rfl⟩ := h
  simp only [leads, he]

theorem Stops.leads_eq (h : T.Stops ty) : T.leads ty = ty := by
  obtain ⟨⟨kind, _, _⟩, he, hr⟩ := h
  unfold leads
  rw [he]
  cases kind with
  | ref target => exact absurd rfl (hr target)
  | _ => rfl

/-- A type that is there ends chains, or else leads on. -/
theorem stops_or_refersTo (h : ty.index < T.entries.size) :
    T.Stops ty ∨ T.RefersTo ty (T.leads ty) := by
  obtain ⟨e, he⟩ : ∃ e, T.find ty = .ok e :=
    ⟨_, find_eq_ok_iff.2 (Array.getElem?_eq_getElem h)⟩
  by_cases hr : ∃ target, e.ty = .ref target
  · obtain ⟨target, hr⟩ := hr
    have hrefers : T.RefersTo ty target := ⟨e, he, hr⟩
    exact .inr (hrefers.leads_eq.symm ▸ hrefers)
  · exact .inl ⟨e, he, fun target h => hr ⟨target, h⟩⟩

/-- A type where chains end is the end of its own chain. -/
theorem Stops.resolves (h : T.Stops ty) : T.Resolves 0 ty ty :=
  let ⟨_, he, hr⟩ := h
  .here he hr

/-- A type that a chain leads to has, if it has an end, the end of the chain. -/
theorem Resolves.of_reached {n : Nat} (h : T.Resolves n ty base)
    (hchain : ReflTransGen T.RefersTo ty target) : ∃ m, T.Resolves m target base := by
  induction hchain with
  | refl => exact ⟨n, h⟩
  | tail _ hstep ih =>
    obtain ⟨m, hm⟩ := ih
    obtain ⟨e, he, hr⟩ := hstep
    cases hm with
    | here found stops =>
      obtain rfl := Except.ok.inj (found.symm.trans he)
      exact absurd hr (stops _)
    | @next m _ _ _ refers rest =>
      have hsame := refers.leads_eq.symm.trans (RefersTo.leads_eq ⟨e, he, hr⟩)
      exact ⟨m, hsame ▸ rest⟩

/-! ## Tables without dangling references -/

section Linked

variable (hT : Within b T.entries) (hb : b.types ≤ T.entries.size)
include hT hb

/-- No step leaves the table. -/
theorem leads_lt (h : ty.index < T.entries.size) : (T.leads ty).index < T.entries.size := by
  rcases stops_or_refersTo h with hstops | ⟨e, he, hr⟩
  · rwa [hstops.leads_eq]
  · have hin : Within b (Ty.ref (T.leads ty)) :=
      hr ▸ (within_typeEntry.1 (hT.getElem? (find_eq_ok_iff.1 he))).1
    exact Nat.lt_of_lt_of_le (within_typeId.1 hin) hb

theorem iterate_leads_lt (h : ty.index < T.entries.size) (n : Nat) :
    (T.leads^[n] ty).index < T.entries.size := by
  induction n with
  | zero => exact h
  | succ n ih =>
    rw [Function.iterate_succ_apply']
    exact leads_lt hT hb ih

/-- **The bounded search takes one step after the other.** -/
theorem impliedWithin_eq_iterate (h : ty.index < T.entries.size) (fuel : Nat) :
    T.impliedWithin fuel ty = .ok (T.leads^[fuel] ty) := by
  induction fuel generalizing ty with
  | zero => rfl
  | succ fuel ih =>
    rw [Function.iterate_succ_apply]
    rcases stops_or_refersTo h with hstops | hrefers
    · rw [hstops.leads_eq, Function.iterate_fixed hstops.leads_eq]
      exact hstops.resolves.impliedWithin_eq (Nat.zero_le _)
    · rw [← ih (leads_lt hT hb h), impliedWithin]
      obtain ⟨e, he, hr⟩ := hrefers
      simp only [he, hr, bind, Except.bind]

/-- Two of the types that a chain passes are the same, if it is followed for long enough. -/
theorem exists_iterate_eq (h : ty.index < T.entries.size) :
    ∃ i period, 0 < period ∧ i + period ≤ T.entries.size ∧
      Function.IsPeriodicPt T.leads period (T.leads^[i] ty) := by
  let place : Fin (T.entries.size + 1) → Fin T.entries.size := fun i =>
    ⟨_, iterate_leads_lt hT hb h i⟩
  obtain ⟨i, j, hne, hij⟩ := Fintype.exists_ne_map_eq_of_card_lt place (by simp)
  have hsame : T.leads^[i] ty = T.leads^[j] ty :=
    congrArg TypeId.mk (Fin.mk.inj hij)
  clear hij
  wlog hlt : i < j generalizing i j
  · exact this j i hne.symm hsame.symm (by omega)
  refine ⟨i, j - i, by omega, by omega, ?_⟩
  rw [Function.IsPeriodicPt, Function.IsFixedPt, ← Function.iterate_add_apply, hsame]
  congr 1
  omega

end Linked

/-- A chain that passes no type where it could end goes on and on. -/
theorem reflTransGen_iterate
    (hon : ∀ x, ReflTransGen T.RefersTo ty x → T.RefersTo x (T.leads x)) (n : Nat) :
    ReflTransGen T.RefersTo ty (T.leads^[n] ty) := by
  induction n with
  | zero => exact .refl
  | succ n ih =>
    rw [Function.iterate_succ_apply']
    exact ih.tail (hon _ ih)

/-- A type that steps lead back to is on a circle of references. -/
theorem transGen_of_isPeriodicPt
    (hon : ∀ x, ReflTransGen T.RefersTo ty x → T.RefersTo x (T.leads x)) {n : Nat} (hn : 0 < n)
    (hperiod : Function.IsPeriodicPt T.leads n ty) : TransGen T.RefersTo ty ty := by
  obtain ⟨n, rfl⟩ : ∃ m, n = m + 1 := ⟨n - 1, by omega⟩
  have hlast := reflTransGen_iterate hon n
  have hback : T.leads (T.leads^[n] ty) = ty := by
    rw [← Function.iterate_succ_apply' T.leads]
    exact hperiod
  have hstep := hon _ hlast
  rw [hback] at hstep
  exact .tail' hlast hstep

/-- **After as many steps as there are types, a chain without end is on its circle.** -/
theorem transGen_of_unending (hT : Within b T.entries) (hb : b.types ≤ T.entries.size)
    (h : ty.index < T.entries.size)
    (hon : ∀ x, ReflTransGen T.RefersTo ty x → T.RefersTo x (T.leads x)) :
    TransGen T.RefersTo (T.leads^[T.entries.size] ty) (T.leads^[T.entries.size] ty) := by
  obtain ⟨i, period, hpos, hle, hperiod⟩ := exists_iterate_eq hT hb h
  -- The circle is entered after `i` steps, and the search takes at least so many.
  have hlast : T.leads^[T.entries.size] ty =
      T.leads^[T.entries.size - i] (T.leads^[i] ty) := by
    rw [← Function.iterate_add_apply]
    congr 1
    omega
  have hreached := reflTransGen_iterate hon T.entries.size
  refine transGen_of_isPeriodicPt (fun x hx => hon x (hreached.trans hx)) hpos ?_
  rw [hlast]
  exact hperiod.apply_iterate _

/-! ## The two kinds of chains -/

/-- **Every chain that ends is resolved to its end**: all the types along it, the end included,
stand for the end, and they do so in every larger table. **From every other chain, the type found is
a reference on the circle that the chain runs into.** -/
theorem implied_resolves (hT : Within b T.entries) (hb : b.types ≤ T.entries.size)
    (h : ty.index < T.entries.size) :
    (∀ base, ReflTransGen T.RefersTo ty base → T.Stops base →
      T.implied ty = .ok base ∧ T.implied base = .ok base ∧
        (∀ x, ReflTransGen T.RefersTo ty x → T.implied x = .ok base) ∧
        ∀ U, T.Grows U → U.implied ty = .ok base) ∧
    ((∀ base, ReflTransGen T.RefersTo ty base → ¬T.Stops base) →
      ∃ base target, T.implied ty = .ok base ∧ T.RefersTo base target ∧
        ReflTransGen T.RefersTo ty base ∧ TransGen T.RefersTo base base) := by
  constructor
  · intro base hchain hstops
    obtain ⟨n, hn⟩ := hstops.resolves.of_chain hchain
    refine ⟨hn.implied_eq, hstops.resolves.implied_eq, fun x hx => ?_,
      fun U hU => (hn.grows hU).implied_eq⟩
    obtain ⟨m, hm⟩ := hn.of_reached hx
    exact hm.implied_eq
  · intro hnever
    have hon : ∀ x, ReflTransGen T.RefersTo ty x → T.RefersTo x (T.leads x) := by
      intro x hx
      have hlt : x.index < T.entries.size := by
        induction hx with
        | refl => exact h
        | tail _ hstep ih => exact hstep.leads_eq ▸ leads_lt hT hb ih
      exact (stops_or_refersTo hlt).resolve_left (hnever x hx)
    have hreached := reflTransGen_iterate hon T.entries.size
    exact ⟨_, _, impliedWithin_eq_iterate hT hb h _, hon _ hreached, hreached,
      transGen_of_unending hT hb h hon⟩

/-- A table with a chain of three references that ends at the integers, and a reference that runs
into a circle of two. -/
def looped : TypeTable :=
  let targets : List TypeId := [⟨15⟩, ⟨16⟩, Builtin.int, ⟨18⟩, ⟨19⟩, ⟨18⟩]
  ⟨((Builtin.types ++ targets.map Ty.ref).map fun ty => { ty := ty }).toArray⟩

/-- Only references are met on the circle and on the way there. -/
theorem looped_circle {x : TypeId} (h : ReflTransGen looped.RefersTo ⟨17⟩ x) :
    x ∈ [⟨17⟩, ⟨18⟩, ⟨19⟩] := by
  induction h with
  | refl => decide
  | tail _ hstep ih =>
    rw [← hstep.leads_eq]
    exact (by decide : ∀ x ∈ [⟨17⟩, ⟨18⟩, ⟨19⟩], looped.leads x ∈ [⟨17⟩, ⟨18⟩, ⟨19⟩]) _ ih

theorem implied_resolves_looped :
    Within ⟨0, 0, 20⟩ looped.entries ∧
      (looped.implied ⟨14⟩ = .ok Builtin.int ∧ looped.implied Builtin.int = .ok Builtin.int ∧
        (∀ x, ReflTransGen looped.RefersTo ⟨14⟩ x → looped.implied x = .ok Builtin.int) ∧
        ∀ U, looped.Grows U → U.implied ⟨14⟩ = .ok Builtin.int) ∧
      ∃ base target, looped.implied ⟨17⟩ = .ok base ∧ looped.RefersTo base target ∧
        ReflTransGen looped.RefersTo ⟨17⟩ base ∧ TransGen looped.RefersTo base base := by
  have hin : Within ⟨0, 0, 20⟩ looped.entries := by decide
  refine ⟨hin, (implied_resolves hin (by decide) (by decide)).1 _ ?_ ⟨_, rfl, nofun⟩,
    (implied_resolves hin (by decide) (by decide)).2 fun base hchain hstops => ?_⟩
  · have h₁ : looped.RefersTo ⟨14⟩ ⟨15⟩ := ⟨_, rfl, rfl⟩
    have h₂ : looped.RefersTo ⟨15⟩ ⟨16⟩ := ⟨_, rfl, rfl⟩
    have h₃ : looped.RefersTo ⟨16⟩ Builtin.int := ⟨_, rfl, rfl⟩
    exact .head h₁ (.head h₂ (.single h₃))
  · have hmoves : ∀ x ∈ [⟨17⟩, ⟨18⟩, ⟨19⟩], looped.leads x ≠ x := by decide
    exact hmoves base (looped_circle hchain) hstops.leads_eq

end TypeTable

end StructuralTypes
