import StructuralTypes.Proofs.Reference
import StructuralTypes.Synthesis.Readonly

/-!
# Going down a type

The variant of a type is made by going down to the types that it is built from, its *members*. Where
this leads is decided by the entries that are writable or references. The search itself adds only
readonly types and changes only those that it added, so the graph that it walks on stays the same
all the time; what changes is which types have a variant already.

Results:
* `SameWritable.unfolds_iff`: where a type leads depends only on writable types and references.
* `SameWritable.push`: adding a readonly type leaves that alone.
* `Session.Knows.opens`: what is open later was open before.
-/

namespace StructuralTypes

/-! ## Entries -/

/-- Whether no value of the type can be written to. -/
def TypeEntry.isReadonly (e : TypeEntry) : Bool :=
  e.flags.contains (.only .readonly) || e.ty.isUnwritable

/-- The entry says where the search goes: it is writable or a reference. -/
def TypeEntry.LeadsOn (e : TypeEntry) : Prop := e.isReadonly = false ∨ ∃ target, e.ty = .ref target

namespace Ty

/-- The types that a variant is made from, in the order in which they are visited. -/
def members : Ty → List TypeId
  | union ms => ms
  | record r => r.fields.values.map (·.ty) ++ r.rest.toList
  | object fields => fields.values.map (·.ty)
  | map constraint => [constraint]
  | _ => []

/-- Whether the variant is a copy made after its members, which is not pending before. -/
def isRebuilt : Ty → Bool
  | union _ | map _ | any | anydata => true
  | _ => false

/-- The type with other members, if it is rebuilt. -/
def rebuild (vs : List TypeId) : Ty → Ty
  | union _ => union vs
  | map constraint => map (vs.headD constraint)
  | ty => ty

/-- Whether a variant can be made that is another type. -/
def isClonable (ty : Ty) : Bool := ty.structureKind?.isSome || ty.isRebuilt

/-- A type whose values can never be written to is not made from variants. -/
theorem members_eq_nil {ty : Ty} (h : ty.isUnwritable) : ty.members = [] := by
  cases ty <;> simp_all [isUnwritable, members]

/-- A type that is rebuilt is made of what it was rebuilt with. -/
theorem mem_of_mem_members_rebuild {ty : Ty} {vs : List TypeId} {m : TypeId} (hr : ty.isRebuilt)
    (hlength : vs.length = ty.members.length) (hm : m ∈ (ty.rebuild vs).members) : m ∈ vs := by
  cases ty with
  | union ms => exact hm
  | map constraint =>
    cases vs with
    | nil => simp [members] at hlength
    | cons v vs => exact List.mem_singleton.1 hm ▸ List.mem_cons_self
  | any | anydata => simp [rebuild, members] at hm
  | _ => simp [isRebuilt] at hr

theorem isRebuilt_eq_false {ty : Ty} (h : ty.structureKind?.isSome) : ty.isRebuilt = false := by
  cases ty <;> simp_all [structureKind?, isRebuilt]

theorem isClonable_ne_ref {ty : Ty} (h : ty.isClonable) (target : TypeId) : ty ≠ .ref target := by
  rintro rfl
  simp [isClonable, structureKind?, isRebuilt] at h

end Ty

/-! ## Tables -/

namespace TypeTable

variable {T U V : TypeTable} {ty base base' : TypeId} {e e' : TypeEntry}

theorem isReadonly_eq_ok_iff {b : Bool} :
    T.isReadonly ty = .ok b ↔ ∃ e, T.find ty = .ok e ∧ e.isReadonly = b := by
  unfold isReadonly
  cases T.find ty <;>
    simp [bind, Except.bind, pure, Except.pure, TypeEntry.isReadonly]

/-- Of a type that is not there nothing can be read. -/
theorem isReadonly_ne_ok (h : ∀ e, T.find ty ≠ .ok e) (b : Bool) : T.isReadonly ty ≠ .ok b := by
  intro hb
  obtain ⟨e, he, -⟩ := isReadonly_eq_ok_iff.1 hb
  exact h e he

/-- Some type on the reference chain of `ty` is readonly. -/
def Settled (T : TypeTable) (ty : TypeId) : Prop :=
  ∃ u, Relation.ReflTransGen T.RefersTo ty u ∧ T.isReadonly u = .ok true

/-- The variant of `ty` is that of `base`, a writable type with the entry `e`. -/
structure Unfolds (T : TypeTable) (ty base : TypeId) (e : TypeEntry) : Prop where
  /-- The type itself does not claim to be readonly. -/
  writable : T.isReadonly ty = .ok false
  /-- It stands for the base. -/
  implied : T.implied ty = .ok base
  /-- The base has the entry. -/
  found : T.find base = .ok e
  /-- The base can be written to. -/
  base_writable : e.isReadonly = false
  /-- The base has a variant. -/
  clonable : e.ty.isClonable

theorem Unfolds.unique (h : T.Unfolds ty base e) (h' : T.Unfolds ty base' e') :
    base = base' ∧ e = e' := by
  obtain rfl := Except.ok.inj (h.implied.symm.trans h'.implied)
  exact ⟨rfl, Except.ok.inj (h.found.symm.trans h'.found)⟩

/-- The base stands for itself. -/
theorem Unfolds.self (h : T.Unfolds ty base e) : T.Unfolds base base e where
  writable := isReadonly_eq_ok_iff.2 ⟨e, h.found, h.base_writable⟩
  implied := implied_eq_self h.found (Ty.isClonable_ne_ref h.clonable)
  found := h.found
  base_writable := h.base_writable
  clonable := h.clonable

/-- A type that unfolds is not settled at its own place nor at its base. -/
theorem Unfolds.isReadonly_base (h : T.Unfolds ty base e) : T.isReadonly base = .ok false :=
  h.self.writable

/-- The tables agree on every entry that leads on. -/
def SameWritable (T U : TypeTable) : Prop :=
  ∀ ty e, e.LeadsOn → (T.find ty = .ok e ↔ U.find ty = .ok e)

namespace SameWritable

theorem refl (T : TypeTable) : T.SameWritable T := fun _ _ _ => Iff.rfl

theorem symm (h : T.SameWritable U) : U.SameWritable T := fun ty e he => (h ty e he).symm

theorem trans (h : T.SameWritable U) (h' : U.SameWritable V) : T.SameWritable V :=
  fun ty e he => (h ty e he).trans (h' ty e he)

/-- Adding types that do not lead on changes nothing that does. -/
theorem of_grows (hg : T.Grows U)
    (hnew : ∀ i e, T.entries.size ≤ i → U.entries[i]? = some e → ¬e.LeadsOn) :
    T.SameWritable U := fun ty e he => by
  refine ⟨hg.find, fun h => ?_⟩
  by_cases hlt : ty.index < T.entries.size
  · exact hg.find_of_lt h hlt
  · exact absurd he (hnew ty.index e (Nat.le_of_not_lt hlt) (find_eq_ok_iff.1 h))

theorem push (hn : ¬e.LeadsOn) : T.SameWritable ⟨T.entries.push e⟩ := by
  refine of_grows (Grows.push _ _) fun i e' hi he' => ?_
  obtain rfl : i = T.entries.size := by
    have := (Array.getElem?_eq_some_iff.1 he').1
    rw [Array.size_push] at this
    omega
  rw [Array.getElem?_push_size] at he'
  exact Option.some.inj he' ▸ hn

theorem isReadonly_eq_false (h : T.SameWritable U) (hw : T.isReadonly ty = .ok false) :
    U.isReadonly ty = .ok false := by
  rw [isReadonly_eq_ok_iff] at hw ⊢
  exact hw.imp fun e he => ⟨(h ty e (.inl he.2)).1 he.1, he.2⟩

theorem refersTo (h : T.SameWritable U) {target : TypeId} (hr : T.RefersTo ty target) :
    U.RefersTo ty target :=
  hr.imp fun e he => ⟨(h ty e (.inr ⟨target, he.2⟩)).1 he.1, he.2⟩

theorem resolves (h : T.SameWritable U) (hb : T.find base = .ok e) (hw : e.isReadonly = false)
    {n : Nat} (hr : T.Resolves n ty base) : U.Resolves n ty base := by
  induction hr with
  | here found stops =>
    obtain rfl := Except.ok.inj (hb.symm.trans found)
    exact .here ((h _ _ (.inl hw)).1 hb) stops
  | next refers _ ih => exact .next (h.refersTo refers) (ih hb)

/-- **Where a type leads depends only on writable types and references.** -/
theorem unfolds_iff (h : T.SameWritable U) : T.Unfolds ty base e ↔ U.Unfolds ty base e := by
  suffices hone : ∀ {T U : TypeTable}, T.SameWritable U → T.Unfolds ty base e →
      U.Unfolds ty base e from ⟨hone h, hone h.symm⟩
  intro T U h hu
  have hfound := (h _ _ (.inl hu.base_writable)).1 hu.found
  refine ⟨h.isReadonly_eq_false hu.writable, ?_, hfound, hu.base_writable, hu.clonable⟩
  have hne := Ty.isClonable_ne_ref hu.clonable
  obtain ⟨n, hn⟩ := (implied_eq_ok_iff_resolves hu.found hne).1 hu.implied
  exact (implied_eq_ok_iff_resolves hfound hne).2 ⟨n, h.resolves hu.found hu.base_writable hn⟩

end SameWritable

end TypeTable

/-! ## Sessions -/

namespace Session

variable {s t : Session} {ty base : TypeId} {e : TypeEntry}

/-- The variant that is known for a type: its unfinished clone, or the remembered one. -/
def known? (s : Session) (ty : TypeId) : Option TypeId := s.pending.get? ty <|> s.memo.get? ty

theorem known?_eq_none_iff :
    s.known? ty = none ↔ s.pending.get? ty = none ∧ s.memo.get? ty = none := by
  unfold known?
  cases s.pending.get? ty <;> simp

/-- What is known comes from an unfinished clone first. -/
theorem known?_eq_some_iff {v : TypeId} : s.known? ty = some v ↔
    s.pending.get? ty = some v ∨ s.pending.get? ty = none ∧ s.memo.get? ty = some v := by
  unfold known?
  cases s.pending.get? ty <;> simp

/-- The variant of `ty` has yet to be made, from the entry `e` of its base. -/
structure Opens (s : Session) (ty base : TypeId) (e : TypeEntry) : Prop where
  /-- The type unfolds to the base. -/
  unfolds : s.types.Unfolds ty base e
  /-- No variant of the type is known. -/
  unknown : s.known? ty = none
  /-- No variant of the base is known. -/
  base_unknown : s.known? base = none

theorem Opens.self (h : s.Opens ty base e) : s.Opens base base e :=
  ⟨h.unfolds.self, h.base_unknown, h.base_unknown⟩

/-- The variant of `ty` has yet to be made. -/
def Open (s : Session) (ty : TypeId) : Prop := ∃ base e, s.Opens ty base e

/-- The variant of `ty` need not be made: it is there. Each way is taken only if those before it
lead nowhere. -/
inductive AtHand (s : Session) (ty : TypeId) : TypeId → Prop
  /-- A variant of the type is known. -/
  | known {v : TypeId} (known : s.known? ty = some v) : AtHand s ty v
  /-- The type is its own variant. -/
  | readonly (unknown : s.known? ty = none) (readonly : s.types.isReadonly ty = .ok true) :
      AtHand s ty ty
  /-- A variant of the base is known. -/
  | baseKnown {base v : TypeId} (unknown : s.known? ty = none)
      (writable : s.types.isReadonly ty = .ok false) (implied : s.types.implied ty = .ok base)
      (known : s.known? base = some v) : AtHand s ty v
  /-- The base is readonly. -/
  | baseReadonly {base : TypeId} (unknown : s.known? ty = none)
      (writable : s.types.isReadonly ty = .ok false) (implied : s.types.implied ty = .ok base)
      (base_unknown : s.known? base = none) (readonly : s.types.isReadonly base = .ok true) :
      AtHand s ty ty

/-- Only one type is at hand. -/
theorem AtHand.unique {v w : TypeId} (h : s.AtHand ty v) (h' : s.AtHand ty w) : v = w := by
  cases h <;> cases h' <;> simp_all

/-- What is at hand does not depend on the package. -/
theorem AtHand.of_package {v : TypeId} (h : s.AtHand ty v) (package : Package) :
    AtHand { s with package } ty v := by
  cases h with
  | known hk => exact .known hk
  | readonly hn hr => exact .readonly hn hr
  | baseKnown hn hw himp hk => exact .baseKnown hn hw himp hk
  | baseReadonly hn hw himp hb hr => exact .baseReadonly hn hw himp hb hr

/-- What is at hand is not open. -/
theorem AtHand.not_open {v : TypeId} (h : s.AtHand ty v) : ¬s.Open ty := by
  rintro ⟨base, e, ho⟩
  cases h with
  | known hk => exact absurd (ho.unknown.symm.trans hk) (by simp)
  | readonly _ hr => exact absurd (ho.unfolds.writable.symm.trans hr) (by simp)
  | baseKnown _ _ himp hk =>
    obtain rfl := Except.ok.inj (himp.symm.trans ho.unfolds.implied)
    exact absurd (ho.base_unknown.symm.trans hk) (by simp)
  | baseReadonly _ _ himp _ hr =>
    obtain rfl := Except.ok.inj (himp.symm.trans ho.unfolds.implied)
    exact absurd (ho.unfolds.isReadonly_base.symm.trans hr) (by simp)

theorem Opens.of_eq (h : s.Opens ty base e) (hT : s.types.SameWritable t.types)
    (hk : t.known? ty = none) (hb : t.known? base = none) : t.Opens ty base e :=
  ⟨hT.unfolds_iff.1 h.unfolds, hk, hb⟩

/-- The session `t` leads the same ways as `s` and knows at least as much. -/
structure Knows (s t : Session) : Prop where
  /-- Both lead the same ways. -/
  same : s.types.SameWritable t.types
  /-- What was known is known. -/
  known : ∀ ty, t.known? ty = none → s.known? ty = none

theorem Knows.refl (s : Session) : s.Knows s := ⟨.refl _, fun _ h => h⟩

theorem Knows.trans {u : Session} (h : s.Knows t) (h' : t.Knows u) : s.Knows u :=
  ⟨h.same.trans h'.same, fun ty hu => h.known ty (h'.known ty hu)⟩

/-- **What is open later was open before.** -/
theorem Knows.opens (h : s.Knows t) (ho : t.Opens ty base e) : s.Opens ty base e :=
  ho.of_eq h.same.symm (h.known _ ho.unknown) (h.known _ ho.base_unknown)

/-- All definitions that `t` has and `s` has not are of symbols from the `n`-th one on. -/
def DefinesFrom (s : Session) (n : Nat) (t : Session) : Prop :=
  ∀ f ∈ t.package.typeDefinitions, f ∈ s.package.typeDefinitions ∨
    n ≤ f.symbol.index ∧ f.symbol.index < t.symbols.symbols.size

theorem DefinesFrom.of_eq {n : Nat} (h : t.package = s.package) : s.DefinesFrom n t :=
  fun _ hf => .inl (h ▸ hf)

theorem DefinesFrom.trans {u : Session} {n m : Nat} (h : s.DefinesFrom n t)
    (h' : t.DefinesFrom m u) (hnm : n ≤ m)
    (hsymbols : t.symbols.symbols.size ≤ u.symbols.symbols.size) : s.DefinesFrom n u := by
  intro f hf
  rcases h' f hf with hf | ⟨hm, hu⟩
  · exact (h f hf).imp_right fun ⟨hn, ht⟩ => ⟨hn, Nat.lt_of_lt_of_le ht hsymbols⟩
  · exact .inr ⟨Nat.le_trans hnm hm, hu⟩

/-- A search may lead from `s` to `t`: it only adds, leads the same ways, and leaves nothing
pending that was not. -/
structure Follows (s t : Session) : Prop where
  /-- It only adds. -/
  keeps : s.Extends t
  /-- The same clones are pending. -/
  pending : t.pending = s.pending
  /-- Nothing that was added leads on. -/
  same : s.types.SameWritable t.types
  /-- Only new symbols were given definitions. -/
  definitions : s.DefinesFrom s.symbols.symbols.size t

theorem Follows.refl (s : Session) : s.Follows s := ⟨.refl s, rfl, .refl _, .of_eq rfl⟩

theorem Follows.trans {u : Session} (h : s.Follows t) (h' : t.Follows u) : s.Follows u where
  keeps := h.keeps.trans h'.keeps
  pending := h'.pending.trans h.pending
  same := h.same.trans h'.same
  definitions :=
    h.definitions.trans h'.definitions h.keeps.symbols.size_le h'.keeps.symbols.size_le

/-- What is known stays known. -/
theorem Follows.known (h : s.Follows t) {k v : TypeId} (hk : s.known? k = some v) :
    t.known? k = some v := by
  rw [known?_eq_some_iff] at hk ⊢
  rw [h.pending]
  exact hk.imp_right fun ⟨hp, hm⟩ => ⟨hp, h.keeps.memo k v hm⟩

theorem Follows.knows (h : s.Follows t) : s.Knows t := by
  refine ⟨h.same, fun ty ht => ?_⟩
  rw [known?_eq_none_iff] at ht ⊢
  rw [← h.pending]
  refine ⟨ht.1, ?_⟩
  cases hm : s.memo.get? ty with
  | none => rfl
  | some v => exact absurd (ht.2.symm.trans (h.keeps.memo ty v hm)) (by simp)

end Session

end StructuralTypes
