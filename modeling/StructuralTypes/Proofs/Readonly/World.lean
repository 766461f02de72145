import StructuralTypes.Proofs.Readonly.Descent

/-!
# The types that are cloned

What a search finds in a table that leads nowhere beyond itself, it still finds there when the table
has grown: chains of references, and with them the types that failed to resolve and those that are
settled, stay the same. Which variants a variant is made from can therefore be read off the table
that the search began with.

Results:
* `Closed.failed_iff`, `Closed.settled_iff`: old types are as they were.
* `Reaches`: the variant of one type is made from that of another.
* `Recurs`: a map or union is built from itself.
* `Replaces.grows`: what stands for a type goes on standing for it.
-/

namespace StructuralTypes

/-- Where a reference leads. -/
def Ty.target? : Ty → Option TypeId
  | ref target => some target
  | _ => none

namespace TypeTable

variable {T U : TypeTable} {P P' : TypeId → TypeId → Prop} {ty u v base base' : TypeId}
  {e : TypeEntry} {n : Nat}

/-- Growing is keeping what can be found. -/
theorem grows_iff : T.Grows U ↔ ∀ ty e, T.find ty = .ok e → U.find ty = .ok e := by
  refine ⟨fun h _ _ => h.find, fun h => ?_⟩
  unfold Grows StructuralTypes.Grows
  rw [List.prefix_iff_getElem?]
  intro i hi
  have hfind := h ⟨i⟩ T.entries.toList[i] (find_eq_ok_iff.2 (by simp))
  rw [Array.getElem?_toList]
  exact find_eq_ok_iff.1 hfind

theorem Grows.isReadonly (hg : T.Grows U) {b : Bool} (h : T.isReadonly ty = .ok b) :
    U.isReadonly ty = .ok b := by
  obtain ⟨e, he, hb⟩ := isReadonly_eq_ok_iff.1 h
  exact isReadonly_eq_ok_iff.2 ⟨e, hg.find he, hb⟩

/-- What is said of all types that can be found is said of all entries. -/
theorem forall_find_iff {p : TypeEntry → Prop} :
    (∀ ty e, T.find ty = .ok e → p e) ↔ ∀ e ∈ T.entries, p e := by
  constructor
  · intro h e he
    obtain ⟨i, hi⟩ := Array.mem_iff_getElem?.1 he
    exact h ⟨i⟩ e (find_eq_ok_iff.2 hi)
  · intro h ty e he
    exact h e (Array.mem_of_getElem? (find_eq_ok_iff.1 he))

/-! ## Tables that lead nowhere beyond themselves -/

/-- All members of types, and all targets of references, are in the table. -/
def Closed (T : TypeTable) : Prop :=
  ∀ ty e, T.find ty = .ok e → ∀ u, u ∈ e.ty.members ∨ e.ty = .ref u → u.index < T.entries.size

instance : DecidablePred Closed := fun T =>
  decidable_of_iff (∀ e ∈ T.entries.toList, ∀ u ∈ e.ty.members ++ e.ty.target?.toList,
      u.index < T.entries.size) <| by
    unfold Closed
    rw [forall_find_iff]
    refine forall_congr' fun e => ?_
    rw [Array.mem_toList_iff]
    refine imp_congr_right fun _ => forall_congr' fun u => ?_
    cases hty : e.ty <;> simp [Ty.target?, eq_comm]

/-- What an old type stands for is old. -/
theorem Closed.implied_found (hT : T.Closed) (hg : T.Grows U) (hty : ty.index < T.entries.size) :
    ∃ base e, U.implied ty = .ok base ∧ T.find base = .ok e := by
  suffices h : ∀ fuel (ty : TypeId), ty.index < T.entries.size →
      ∃ base e, U.impliedWithin fuel ty = .ok base ∧ T.find base = .ok e from h _ ty hty
  intro fuel
  induction fuel with
  | zero =>
    intro ty hty
    obtain ⟨e, he⟩ := exists_find hty
    exact ⟨ty, e, rfl, he⟩
  | succ fuel ih =>
    intro ty hty
    obtain ⟨e, he⟩ := exists_find hty
    rw [impliedWithin, hg.find he]
    show ∃ base e', (match e.ty with
      | .ref target => U.impliedWithin fuel target
      | _ => .ok ty) = .ok base ∧ T.find base = .ok e'
    split
    · rename_i target ht
      exact ih target (hT ty e he target (.inr ht))
    · exact ⟨ty, e, rfl, he⟩

/-- References between old types are old. -/
theorem Closed.refersTo (hT : T.Closed) (hg : T.Grows U) (hty : ty.index < T.entries.size)
    (h : U.RefersTo ty u) : T.RefersTo ty u ∧ u.index < T.entries.size := by
  obtain ⟨e, he, hr⟩ := h
  have hold := hg.find_of_lt he hty
  exact ⟨⟨e, hold, hr⟩, hT ty e hold u (.inr hr)⟩

theorem Closed.resolves (hT : T.Closed) (hg : T.Grows U) (hty : ty.index < T.entries.size)
    (h : U.Resolves n ty base) : T.Resolves n ty base := by
  induction h with
  | here found stops => exact .here (hg.find_of_lt found hty) stops
  | next refers _ ih =>
    obtain ⟨hold, hlt⟩ := hT.refersTo hg hty refers
    exact .next hold (ih hlt)

/-- An old type has failed to resolve if it had. -/
theorem Closed.failed_iff (hT : T.Closed) (hg : T.Grows U) (hty : ty.index < T.entries.size) :
    U.Failed ty ↔ T.Failed ty := by
  refine ⟨?_, Failed.grows hg⟩
  rintro ⟨n, base, e, hr, he, hfailed⟩
  have hr' := hT.resolves hg hty hr
  obtain ⟨e', he', -⟩ := hr'.base_found
  obtain rfl := Except.ok.inj (he.symm.trans (hg.find he'))
  exact ⟨n, base, _, hr', he', hfailed⟩

theorem Settled.grows (hg : T.Grows U) (h : T.Settled ty) : U.Settled ty := by
  obtain ⟨u, hchain, hr⟩ := h
  exact ⟨u, Relation.ReflTransGen.mono (fun _ _ h => h.grows hg) _ _ hchain, hg.isReadonly hr⟩

/-- An old type is settled if it was. -/
theorem Closed.settled_iff (hT : T.Closed) (hg : T.Grows U) (hty : ty.index < T.entries.size) :
    U.Settled ty ↔ T.Settled ty := by
  refine ⟨?_, Settled.grows hg⟩
  rintro ⟨u, hchain, hr⟩
  induction hchain using Relation.ReflTransGen.head_induction_on with
  | refl =>
    obtain ⟨e, he, hro⟩ := isReadonly_eq_ok_iff.1 hr
    exact ⟨_, .refl, isReadonly_eq_ok_iff.2 ⟨e, hg.find_of_lt he hty, hro⟩⟩
  | head hstep _ ih =>
    obtain ⟨hold, hlt⟩ := hT.refersTo hg hty hstep
    obtain ⟨w, hw, hr⟩ := ih hlt
    exact ⟨w, .head hold hw, hr⟩

/-! ## Bases -/

/-- A type that can be cloned has not failed to resolve. -/
theorem not_failed_of_clonable (he : T.find ty = .ok e) (hc : e.ty.isClonable) : ¬T.Failed ty := by
  rw [T.failed_iff (implied_eq_self he (Ty.isClonable_ne_ref hc)) he]
  intro hfailed
  simp [hfailed, Ty.isClonable, Ty.structureKind?, Ty.isRebuilt] at hc

theorem Unfolds.not_failed (h : T.Unfolds ty base e) : ¬T.Failed ty := by
  rw [T.failed_iff h.implied h.found]
  intro hfailed
  have hc := h.clonable
  simp [hfailed, Ty.isClonable, Ty.structureKind?, Ty.isRebuilt] at hc

/-- The chain of a type goes on from the type that it stands for. -/
theorem Unfolds.of_implied (hw : T.isReadonly ty = .ok false) (himplied : T.implied ty = .ok base)
    (h : T.Unfolds base base' e) : T.Unfolds ty base' e := by
  have hne := Ty.isClonable_ne_ref h.clonable
  refine ⟨hw, ?_, h.found, h.base_writable, h.clonable⟩
  obtain ⟨n, hn⟩ := (implied_eq_ok_iff_resolves h.found hne).1 h.implied
  exact (implied_eq_ok_iff_resolves h.found hne).2 (hn.of_chain (chain_of_implied himplied))

/-- No reference claims to be readonly by itself. -/
def PlainReferences (T : TypeTable) : Prop :=
  ∀ ty e target, T.find ty = .ok e → e.ty = .ref target → ¬e.flags.contains (.only .readonly)

instance : DecidablePred PlainReferences := fun T =>
  decidable_of_iff (∀ e ∈ T.entries.toList, e.ty.target?.isSome →
      ¬e.flags.contains (.only .readonly)) <| by
    have hentries : T.PlainReferences ↔ ∀ ty e, T.find ty = .ok e →
        ∀ target, e.ty = .ref target → ¬e.flags.contains (.only .readonly) :=
      ⟨fun h ty e he target => h ty e target he, fun h ty e target he => h ty e he target⟩
    rw [hentries, forall_find_iff]
    refine forall_congr' fun e => ?_
    rw [Array.mem_toList_iff]
    refine imp_congr_right fun _ => ?_
    cases hty : e.ty <;> simp [Ty.target?]

theorem PlainReferences.of_same (hT : T.PlainReferences) (h : T.SameWritable U) :
    U.PlainReferences :=
  fun ty e target he ht => hT ty e target ((h ty e (.inr ⟨target, ht⟩)).2 he) ht

/-- A type that is readonly is no reference. -/
theorem PlainReferences.ne_ref (hT : T.PlainReferences) (he : T.find ty = .ok e)
    (hr : e.isReadonly) (target : TypeId) : e.ty ≠ .ref target := by
  intro ht
  rw [TypeEntry.isReadonly, ht, Bool.or_eq_true] at hr
  exact hr.elim (hT ty e target he ht) (by simp [Ty.isUnwritable])

/-- What stands for a type that can be cloned unfolds to it. -/
theorem PlainReferences.unfolds (hT : T.PlainReferences) (himplied : T.implied ty = .ok base)
    (h : T.Unfolds base base e) : T.Unfolds ty base e := by
  refine ⟨?_, himplied, h.found, h.base_writable, h.clonable⟩
  rcases (chain_of_implied himplied).cases_head with rfl | ⟨target, ⟨d, hd, ht⟩, -⟩
  · exact h.writable
  · refine isReadonly_eq_ok_iff.2 ⟨d, hd, ?_⟩
    cases hr : d.isReadonly with
    | false => rfl
    | true => exact absurd ht (hT.ne_ref hd hr target)

/-- If no reference claims to be readonly, a type is settled by what it stands for. -/
theorem Settled.isReadonly_base (hT : T.PlainReferences) (h : T.Settled ty)
    (himplied : T.implied ty = .ok base) : T.isReadonly base = .ok true := by
  obtain ⟨u, hchain, hu⟩ := h
  obtain ⟨e, he, hr⟩ := isReadonly_eq_ok_iff.1 hu
  have hne := hT.ne_ref he hr
  have hbase := (implied_eq_ok_iff_resolves he hne).2 ((Resolves.here he hne).of_chain hchain)
  obtain rfl := Except.ok.inj (himplied.symm.trans hbase)
  exact hu

/-! ## What a variant is made from -/

/-- A variant of `ty` is made from one of `u`. -/
def Needs (T : TypeTable) (ty u : TypeId) : Prop :=
  ∃ base e, T.Unfolds ty base e ∧ u ∈ e.ty.members

/-- A variant of `ty` is made from a clone of `base`, or is one. -/
def Reaches (T : TypeTable) (ty base : TypeId) : Prop :=
  ∃ u e, Relation.ReflTransGen T.Needs ty u ∧ T.Unfolds u base e

/-- A variant of the map or union `base` is made from another clone of itself. -/
def Recurs (T : TypeTable) (base : TypeId) : Prop :=
  ∃ e, T.Unfolds base base e ∧ e.ty.isRebuilt ∧ ∃ m ∈ e.ty.members, T.Reaches m base

theorem Unfolds.reaches (h : T.Unfolds ty base e) : T.Reaches ty base := ⟨ty, e, .refl, h⟩

theorem Reaches.of_member (h : T.Unfolds ty base e) (hu : u ∈ e.ty.members)
    (hr : T.Reaches u base') : T.Reaches ty base' := by
  obtain ⟨w, e', hchain, hw⟩ := hr
  exact ⟨w, e', .head ⟨base, e, h, hu⟩ hchain, hw⟩

/-- The type is its own variant: it is settled, and nothing writable is cloned for it. -/
structure Rests (T : TypeTable) (ty : TypeId) : Prop where
  /-- Some type on its chain is readonly. -/
  settled : T.Settled ty
  /-- It does not stand for a type that can be cloned. -/
  not_unfolds : ∀ base e, ¬T.Unfolds ty base e

theorem Rests.grows (h : T.Rests ty) (hg : T.Grows U) (hsame : T.SameWritable U) : U.Rests ty :=
  ⟨h.settled.grows hg, fun base e hu => h.not_unfolds base e (hsame.unfolds_iff.2 hu)⟩

/-- A readonly type is its own variant. -/
theorem rests_of_isReadonly (h : T.isReadonly ty = .ok true) : T.Rests ty where
  settled := ⟨ty, .refl, h⟩
  not_unfolds base e hu := by simp [hu.writable] at h

/-- So is a type that stands for a readonly one. -/
theorem rests_of_implied (himplied : T.implied ty = .ok base) (h : T.isReadonly base = .ok true) :
    T.Rests ty where
  settled := ⟨base, chain_of_implied himplied, h⟩
  not_unfolds base' e hu := by
    obtain rfl := Except.ok.inj (himplied.symm.trans hu.implied)
    simp [hu.isReadonly_base] at h

/-- The type `v` stands for `ty`: it is `ty`, which is its own variant, or it is a clone of the
base. Which types are clones of which is told by `P`. -/
def Replaces (T : TypeTable) (P : TypeId → TypeId → Prop) (ty v : TypeId) : Prop :=
  (v = ty ∧ T.Rests ty) ∨ ∃ base e, T.Unfolds ty base e ∧ P base v

theorem Replaces.imp (h : T.Replaces P ty v) (hP : ∀ b c, P b c → P' b c) : T.Replaces P' ty v :=
  h.imp_right fun ⟨base, e, hu, hv⟩ => ⟨base, e, hu, hP base v hv⟩

/-- What stands for a type goes on standing for it. -/
theorem Replaces.grows (h : T.Replaces P ty v) (hg : T.Grows U) (hsame : T.SameWritable U) :
    U.Replaces P ty v :=
  Or.imp (fun ⟨hv, hr⟩ => ⟨hv, hr.grows hg hsame⟩)
    (fun ⟨base, e, hu, hv⟩ => ⟨base, e, hsame.unfolds_iff.1 hu, hv⟩) h

/-- What stands for an old type did so before. -/
theorem Closed.replaces (hT : T.Closed) (hg : T.Grows U) (hsame : T.SameWritable U)
    (hty : ty.index < T.entries.size) (h : U.Replaces P ty v) : T.Replaces P ty v :=
  Or.imp
    (fun ⟨hv, hr⟩ => ⟨hv, (hT.settled_iff hg hty).1 hr.settled,
      fun base e hu => hr.not_unfolds base e (hsame.unfolds_iff.1 hu)⟩)
    (fun ⟨base, e, hu, hv⟩ => ⟨base, e, hsame.unfolds_iff.2 hu, hv⟩) h

/-- What stands for a type that unfolds is a clone of its base. -/
theorem Replaces.of_unfolds (h : T.Replaces P ty v) (hu : T.Unfolds ty base e) : P base v := by
  rcases h with ⟨-, hr⟩ | ⟨base', e', hu', hP⟩
  · exact absurd hu (hr.not_unfolds base e)
  · obtain ⟨rfl, -⟩ := hu.unique hu'
    exact hP

end TypeTable

end StructuralTypes
