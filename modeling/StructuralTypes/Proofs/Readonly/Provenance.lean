import StructuralTypes.Proofs.Readonly.Shape
import StructuralTypes.Proofs.Readonly.World

/-!
# Where clones come from

The search keeps no record of what it cloned, so one is kept beside it: `P base c` says that `c` was
made as the clone of `base`, a type of the table `T` that the search began with. Clones that are not
finished are *unfinished*; they are the pending ones and those that a failure left behind. What
earlier searches left behind may be *abandoned*: it is nobody's clone any more.

`Provenance T Reg Abandoned Unfinished P s` is what a search keeps: all that was added is known to
`P`, a clone that is not unfinished has the shape of its base, and what is remembered is not
unfinished. Since the shape is stated with `P`, a finished clone may have unfinished members, which
get their shape later.

Results:
* `Provenance.replaces_of_atHand`: what is at hand stands for the type that was asked for.
* `Provenance.add`, `Provenance.mark`, `Provenance.changesOnlyClone`, `Provenance.remember`: the
  steps.
* `Provenance.forget`: the end of a search that stopped.
-/

namespace StructuralTypes

/-- A symbol has a definition in the package or elsewhere, where `Reg` tells. -/
def Session.Registers (s : Session) (Reg : SymbolId → Prop) (x : SymbolId) : Prop :=
  Reg x ∨ ∃ d ∈ s.package.typeDefinitions, d.symbol = x

/-- What is known and one clone more. -/
def Adding (P : TypeId → TypeId → Prop) (base c : TypeId) : TypeId → TypeId → Prop :=
  fun b x => P b x ∨ b = base ∧ x = c

/-- The unfinished clones and one more. -/
def Including (Unfinished : TypeId → Prop) (c : TypeId) : TypeId → Prop :=
  fun x => Unfinished x ∨ x = c

/-- The clone `c` with the entry `e'` was made of all of `base`, whose entry is `e`. -/
structure Finished (T : TypeTable) (Reg : SymbolId → Prop) (P : TypeId → TypeId → Prop)
    (s : Session) (base c : TypeId) (e e' : TypeEntry) : Prop where
  /-- It has the same shape. -/
  mirrors : e.ty.Mirrors T (T.Replaces P) e'.ty
  /-- Some clone is remembered. -/
  remembered : s.memo.get? base ≠ none
  /-- It is this one, unless the base is built from itself with no structure in between. -/
  sole : ¬T.Recurs base → s.memo.get? base = some c
  /-- The clone of a structure has a definition. -/
  registered : e.ty.structureKind?.isSome → ∃ x, e'.symbol = some x ∧ s.Registers Reg x

/-- What a search that began with the table `T` has added is known to `P`. -/
structure Provenance (T : TypeTable) (Reg : SymbolId → Prop) (Abandoned Unfinished : TypeId → Prop)
    (P : TypeId → TypeId → Prop) (s : Session) : Prop where
  /-- Types were only added. -/
  grows : T.Grows s.types
  /-- None of them leads on. -/
  same : T.SameWritable s.types
  /-- A clone has one base. -/
  unique : ∀ {b b' c}, P b c → P b' c → b = b'
  /-- It was added, and the base was there. -/
  source : ∀ {b c}, P b c → T.entries.size ≤ c.index ∧ ∃ e, T.Unfolds b b e
  /-- It is a readonly type of the same kind. -/
  clone : ∀ {b c e}, P b c → T.Unfolds b b e → ∃ e', s.types.find c = .ok e' ∧
    e'.flags.contains (.only .readonly) ∧ e'.ty.isClonable ∧
      e'.ty.structureKind? = e.ty.structureKind?
  /-- If it is not unfinished, it is finished. -/
  finished : ∀ {b c e e'}, P b c → ¬Unfinished c → T.Unfolds b b e → s.types.find c = .ok e' →
    Finished T Reg P s b c e e'
  /-- Only clones are unfinished. -/
  unfinished : ∀ {c}, Unfinished c → ∃ b, P b c
  /-- Pending clones are unfinished, and no other clone of their base is remembered. -/
  pending : ∀ {b c}, s.pending.get? b = some c → P b c ∧ Unfinished c ∧ s.memo.get? b = none
  /-- What is remembered is a clone that is not unfinished. -/
  memo : ∀ {k v}, s.memo.get? k = some v → ¬Unfinished v ∧ ∃ b e, T.Unfolds k b e ∧ P b v
  /-- What earlier searches left behind is no longer known. -/
  abandoned : ∀ {c}, Abandoned c → c.index < s.types.entries.size ∧ ∀ b, ¬P b c
  /-- All other types added are function types. -/
  all : ∀ {i e'}, T.entries.size ≤ i → s.types.entries[i]? = some e' →
    e'.ty.isInvokable ∨ Abandoned ⟨i⟩ ∨ ∃ b, P b ⟨i⟩
  /-- What is registered was there or is not unfinished. -/
  definitions : ∀ {d c}, d ∈ s.package.typeDefinitions → d.ty = some c →
    c.index < T.entries.size ∨ ∃ b, P b c ∧ ¬Unfinished c

variable {T : TypeTable} {Reg Reg' : SymbolId → Prop}
  {Abandoned Unfinished Unfinished' : TypeId → Prop}
  {P P' : TypeId → TypeId → Prop} {s t u : Session} {base b c k ty v : TypeId} {e e' : TypeEntry}

/-- More may be known, and more be registered, as long as no less is remembered. -/
theorem Finished.imp (h : Finished T Reg P s b c e e') (hP : ∀ b c, P b c → P' b c)
    (hmemo : ∀ v, s.memo.get? b = some v → t.memo.get? b = some v)
    (hreg : ∀ x, s.Registers Reg x → t.Registers Reg' x) : Finished T Reg' P' t b c e e' where
  mirrors := h.mirrors.imp (fun _ _ _ hr => hr.imp hP) fun _ _ => Iff.rfl
  remembered := by
    obtain ⟨v, hv⟩ := Option.ne_none_iff_exists'.1 h.remembered
    simp [hmemo v hv]
  sole hb := hmemo c (h.sole hb)
  registered hs := (h.registered hs).imp fun x ⟨hx, hr⟩ => ⟨hx, hreg x hr⟩

/-- Only what is remembered and what is registered matter. -/
theorem Finished.of_memo (h : Finished T Reg P s b c e e') (hmemo : t.memo = s.memo)
    (hpackage : t.package = s.package) : Finished T Reg P t b c e e' := by
  refine h.imp (fun _ _ hP => hP) (fun v hv => hmemo ▸ hv) fun x hx => ?_
  unfold Session.Registers
  rw [hpackage]
  exact hx

namespace Provenance

/-! ## Reading -/

theorem lt_size (h : Provenance T Reg Abandoned Unfinished P s) (hP : P b c) :
    c.index < s.types.entries.size := by
  obtain ⟨-, e, he⟩ := h.source hP
  obtain ⟨e', he', -⟩ := h.clone hP he
  exact TypeTable.lt_of_find he'

/-- A type that was added just now is not known yet. -/
theorem not_known (h : Provenance T Reg Abandoned Unfinished P s) : ¬P b ⟨s.types.entries.size⟩ :=
  fun hP => Nat.lt_irrefl _ (h.lt_size hP)

theorem not_unfinished (h : Provenance T Reg Abandoned Unfinished P s) :
    ¬Unfinished ⟨s.types.entries.size⟩ := by
  intro hunfinished
  obtain ⟨b, hP⟩ := h.unfinished hunfinished
  exact h.not_known hP

/-- A clone has not failed to resolve. -/
theorem not_failed (h : Provenance T Reg Abandoned Unfinished P s) (hP : P b c) :
    ¬s.types.Failed c := by
  obtain ⟨-, e, he⟩ := h.source hP
  obtain ⟨e', he', -, hc, -⟩ := h.clone hP he
  exact TypeTable.not_failed_of_clonable he' hc

/-- A type whose variant is known stands for the base of that variant. -/
theorem known (h : Provenance T Reg Abandoned Unfinished P s) (hk : s.known? k = some v) :
    ∃ b e, T.Unfolds k b e ∧ P b v := by
  rcases Session.known?_eq_some_iff.1 hk with hp | ⟨-, hm⟩
  · obtain ⟨hP, -, -⟩ := h.pending hp
    obtain ⟨-, e, he⟩ := h.source hP
    exact ⟨k, e, he, hP⟩
  · exact (h.memo hm).2

/-- **What is at hand stands for the type that was asked for.** -/
theorem replaces_of_atHand (h : Provenance T Reg Abandoned Unfinished P s) (hv : s.AtHand ty v) :
    s.types.Replaces P ty v := by
  cases hv with
  | known hk =>
    obtain ⟨b, e, hu, hP⟩ := h.known hk
    exact .inr ⟨b, e, h.same.unfolds_iff.1 hu, hP⟩
  | readonly _ hr => exact .inl ⟨rfl, TypeTable.rests_of_isReadonly hr⟩
  | baseKnown _ hw himplied hk =>
    obtain ⟨b, e, hu, hP⟩ := h.known hk
    exact .inr ⟨b, e, .of_implied hw himplied (h.same.unfolds_iff.1 hu), hP⟩
  | baseReadonly _ _ himplied _ hr =>
    exact .inl ⟨rfl, TypeTable.rests_of_implied himplied hr⟩

/-- What is open was so in the table that the search began with. -/
theorem unfolds (h : Provenance T Reg Abandoned Unfinished P s) (ho : s.Opens ty base e) :
    T.Unfolds ty base e :=
  h.same.unfolds_iff.2 ho.unfolds

/-! ## Steps -/

/-- Only the types, the package and what is known matter. -/
theorem of_eq (h : Provenance T Reg Abandoned Unfinished P s) (htypes : t.types = s.types)
    (hmemo : t.memo = s.memo) (hpending : t.pending = s.pending)
    (hpackage : t.package = s.package) :
    Provenance T Reg Abandoned Unfinished P t := by
  obtain ⟨symbols, types, names, package, memo, pending⟩ := t
  obtain rfl : types = s.types := htypes
  obtain rfl : memo = s.memo := hmemo
  obtain rfl : pending = s.pending := hpending
  obtain rfl : package = s.package := hpackage
  exact ⟨h.grows, h.same, h.unique, h.source, h.clone,
    fun hP hunfinished hb hc => (h.finished hP hunfinished hb hc).of_memo rfl rfl,
    h.unfinished, h.pending, h.memo, h.abandoned, h.all, h.definitions⟩

/-- Fewer clones may be pending; those that no longer are stay unfinished. -/
theorem of_pending (h : Provenance T Reg Abandoned Unfinished P s) {p : CloneMap}
    (hp : ∀ b c, p.get? b = some c → s.pending.get? b = some c) :
    Provenance T Reg Abandoned Unfinished P { s with pending := p } :=
  ⟨h.grows, h.same, h.unique, h.source, h.clone,
    fun hP hunfinished hb hc => (h.finished hP hunfinished hb hc).of_memo rfl rfl,
    h.unfinished, fun hb => h.pending (hp _ _ hb), h.memo, h.abandoned, h.all, h.definitions⟩

/-- The search may go on in another package, if nothing unfinished is registered there. -/
theorem of_package (h : Provenance T Reg Abandoned Unfinished P s) {package : Package}
    (hreg : ∀ x, s.Registers Reg x → Reg' x)
    (hdefinitions : ∀ d ∈ package.typeDefinitions, ∀ c, d.ty = some c →
      c.index < T.entries.size ∨ ∃ b, P b c ∧ ¬Unfinished c) :
    Provenance T Reg' Abandoned Unfinished P { s with package } :=
  ⟨h.grows, h.same, h.unique, h.source, h.clone,
    fun hP hunfinished hb hc => (h.finished hP hunfinished hb hc).imp (fun _ _ h => h)
      (fun _ h => h) fun x hx => .inl (hreg x hx),
    h.unfinished, h.pending, h.memo, h.abandoned, h.all, fun hd hc => hdefinitions _ hd _ hc⟩

/-- A readonly type is added as an unfinished clone. -/
theorem add (h : Provenance T Reg Abandoned Unfinished P s) (hb : T.Unfolds base base e)
    (e' : TypeEntry) (hflags : e'.flags.contains (.only .readonly)) (hc : e'.ty.isClonable)
    (hk : e'.ty.structureKind? = e.ty.structureKind?) :
    Provenance T Reg Abandoned (Including Unfinished ⟨s.types.entries.size⟩)
      (Adding P base ⟨s.types.entries.size⟩) { s with types := (s.types.add e').2 } where
  grows := StructuralTypes.Grows.trans h.grows (.push _ _)
  same := by
    refine h.same.trans (.push ?_)
    rintro (hr | ⟨target, ht⟩)
    · simp [TypeEntry.isReadonly, hflags] at hr
    · exact Ty.isClonable_ne_ref hc target ht
  unique := by
    rintro b b' c (hP | ⟨hb₁, hc₁⟩) (hP' | ⟨hb₂, hc₂⟩)
    · exact h.unique hP hP'
    · exact absurd (hc₂ ▸ hP) h.not_known
    · exact absurd (hc₁ ▸ hP') h.not_known
    · exact hb₁.trans hb₂.symm
  source := by
    rintro b c (hP | ⟨rfl, rfl⟩)
    · exact h.source hP
    · exact ⟨h.grows.size_le, e, hb⟩
  clone := by
    rintro b c d (hP | ⟨rfl, rfl⟩) hd
    · obtain ⟨d', hd', hrest⟩ := h.clone hP hd
      exact ⟨d', TypeTable.find_add_of_find hd' e', hrest⟩
    · obtain rfl := (hb.unique hd).2
      exact ⟨e', TypeTable.find_add_self s.types e', hflags, hc, hk⟩
  finished := by
    rintro b c d d' (hP | ⟨rfl, rfl⟩) hunfinished hd hd'
    · obtain ⟨d'', hd''⟩ := TypeTable.exists_find (h.lt_size hP)
      obtain rfl := Except.ok.inj (hd'.symm.trans (TypeTable.find_add_of_find hd'' e'))
      have hf := h.finished hP (fun hr => hunfinished (.inl hr)) hd hd''
      exact hf.imp (fun _ _ hP => .inl hP) (fun _ h => h) fun _ h => h
    · exact absurd (.inr rfl) hunfinished
  unfinished := by
    rintro c (hunfinished | rfl)
    · exact (h.unfinished hunfinished).imp fun b hP => .inl hP
    · exact ⟨base, .inr ⟨rfl, rfl⟩⟩
  pending := by
    intro b c hp
    obtain ⟨hP, hunfinished, hmemo⟩ := h.pending hp
    exact ⟨.inl hP, .inl hunfinished, hmemo⟩
  memo := by
    intro k v hm
    obtain ⟨hunfinished, b, d, hu, hP⟩ := h.memo hm
    refine ⟨?_, b, d, hu, .inl hP⟩
    rintro (hr | rfl)
    · exact hunfinished hr
    · exact h.not_known hP
  abandoned := by
    intro c hc
    obtain ⟨hlt, hnot⟩ := h.abandoned hc
    refine ⟨Nat.lt_of_lt_of_le hlt (by simp [TypeTable.add]), ?_⟩
    rintro b (hP | ⟨-, rfl⟩)
    · exact hnot b hP
    · exact Nat.lt_irrefl _ hlt
  all := by
    intro i d hi hd
    simp only [TypeTable.add, Array.getElem?_push] at hd
    split at hd
    · rename_i heq
      subst heq
      exact .inr (.inr ⟨base, .inr ⟨rfl, rfl⟩⟩)
    · rcases h.all hi hd with hinvokable | habandoned | ⟨b, hP⟩
      · exact .inl hinvokable
      · exact .inr (.inl habandoned)
      · exact .inr (.inr ⟨b, .inl hP⟩)
  definitions := by
    intro d c hd hty
    rcases h.definitions hd hty with hlt | ⟨b, hP, hunfinished⟩
    · exact .inl hlt
    · refine .inr ⟨b, .inl hP, ?_⟩
      rintro (hr | rfl)
      · exact hunfinished hr
      · exact h.not_known hP

/-- An unfinished clone becomes pending. -/
theorem mark (h : Provenance T Reg Abandoned Unfinished P s) (hP : P base v)
    (hunfinished : Unfinished v) (hmemo : s.memo.get? base = none) :
    Provenance T Reg Abandoned Unfinished P { s with pending := s.pending.insert base v } := by
  refine ⟨h.grows, h.same, h.unique, h.source, h.clone,
    fun hP hunfinished hb hc => (h.finished hP hunfinished hb hc).of_memo rfl rfl,
    h.unfinished, ?_, h.memo, h.abandoned, h.all, h.definitions⟩
  intro b c hb
  rw [OrderedMap.get?_insert] at hb
  split at hb
  · rename_i heq
    obtain rfl := heq
    obtain rfl := Option.some.inj hb
    exact ⟨hP, hunfinished, hmemo⟩
  · exact h.pending hb

/-- Work on an unfinished clone changes nothing that is known. -/
theorem changesOnlyClone (h : Provenance T Reg Abandoned Unfinished P t)
    (hunfinished : Unfinished c)
    (hstructured : ∀ e', t.types.find c = .ok e' → e'.ty.structureKind?.isSome)
    (hsame : T.SameWritable u.types) (hw : ChangesOnlyClone c t u) :
    Provenance T Reg Abandoned Unfinished P u where
  grows := by
    refine TypeTable.grows_iff.2 fun ty e he => hw.kept ty e ?_ (h.grows.find he)
    -- the clone is newer than the table
    rintro rfl
    obtain ⟨b, hP⟩ := h.unfinished hunfinished
    exact absurd (TypeTable.lt_of_find he) (Nat.not_lt_of_le (h.source hP).1)
  same := hsame
  unique := h.unique
  source := h.source
  clone := by
    intro b x d hP hd
    obtain ⟨d', hd', hflags, hc, hk⟩ := h.clone hP hd
    by_cases hx : x = c
    · subst hx
      obtain ⟨body, hkind, hbody⟩ := hw.clone d' hd'
      have hs := hstructured d' hd'
      refine ⟨_, hbody, hflags, ?_, hkind.trans hk⟩
      simp [Ty.isClonable, hkind, hs]
    · exact ⟨d', hw.kept x d' hx hd', hflags, hc, hk⟩
  finished := by
    intro b x d d' hP hx hd hd'
    have hne : x ≠ c := by
      rintro rfl
      exact hx hunfinished
    obtain ⟨d'', hd'', -⟩ := h.clone hP hd
    obtain rfl := Except.ok.inj (hd'.symm.trans (hw.kept x d'' hne hd''))
    exact (h.finished hP hx hd hd'').of_memo hw.memo hw.package
  unfinished := h.unfinished
  pending := by
    rw [hw.pending, hw.memo]
    exact h.pending
  memo := by
    rw [hw.memo]
    exact h.memo
  abandoned hc := (h.abandoned hc).imp_left fun hlt => Nat.lt_of_lt_of_le hlt hw.types
  all := by
    intro i d hi hd
    by_cases hlt : i < t.types.entries.size
    · by_cases hic : (⟨i⟩ : TypeId) = c
      · exact .inr (.inr (hic ▸ h.unfinished hunfinished))
      · obtain ⟨d', hd'⟩ := (TypeTable.exists_find hlt : ∃ d, t.types.find ⟨i⟩ = .ok d)
        have hd'' := TypeTable.find_eq_ok_iff.1 (hw.kept _ d' hic hd')
        obtain rfl := Option.some.inj (hd.symm.trans hd'')
        exact h.all hi (TypeTable.find_eq_ok_iff.1 hd')
    · exact .inl (hw.added i d (Nat.le_of_not_lt hlt) hd)
  definitions := by
    rw [hw.package]
    exact h.definitions

/-- Another clone that was finished stays so when `v` is remembered as well. -/
theorem finished_remembering (h : Provenance T Reg Abandoned (Including Unfinished v) P s)
    {package : Package} {ds : List TypeDefinition} (hu : T.Unfolds ty base e)
    (hsole : ∀ c, P base c → ¬Unfinished c → c ≠ v → T.Recurs base)
    (hpackage : package.typeDefinitions = s.package.typeDefinitions ++ ds) {d d' : TypeEntry}
    (hc : P b c) (hunfinished : ¬Unfinished c) (hcv : c ≠ v) (hd : T.Unfolds b b d)
    (hd' : s.types.find c = .ok d') :
    Finished T Reg P ({ s with package }.remembering base ty v) b c d d' := by
  have hf := h.finished hc (fun hr => hr.elim hunfinished hcv) hd hd'
  have hregisters : ∀ x, s.Registers Reg x →
      ({ s with package }.remembering base ty v).Registers Reg x :=
    fun x hx => hx.imp_right fun ⟨f, hf, hfx⟩ =>
      ⟨f, hpackage ▸ List.mem_append_left ds hf, hfx⟩
  by_cases hb : b = base
  · -- another clone of the same base is finished
    subst hb
    refine ⟨hf.mirrors, ?_, fun hn => absurd (hsole c hc hunfinished hcv) hn, fun hs => ?_⟩
    · rw [Session.get?_remembering]
      simp
    · exact (hf.registered hs).imp fun x ⟨hx, hr⟩ => ⟨hx, hregisters x hr⟩
  · -- only what stands for itself has clones
    have hbty : b ≠ ty := by
      rintro rfl
      exact hb (hd.unique hu).1
    refine hf.imp (fun _ _ h => h) (fun w hw => ?_) hregisters
    rw [Session.get?_remembering, if_neg hbty, if_neg hb]
    exact hw

/-- **An unfinished clone becomes a finished one**: it is remembered, and definitions of it are
registered. -/
theorem remember (h : Provenance T Reg Abandoned (Including Unfinished v) P s) (package : Package)
    (ds : List TypeDefinition) (hP : P base v) (hnot : ¬Unfinished v)
    (hu : T.Unfolds ty base e) (hv : s.types.find v = .ok e')
    (hty : s.pending.get? ty = none) (hbase : s.pending.get? base = none)
    (hmirrors : e.ty.Mirrors T (T.Replaces P) e'.ty)
    (hsole : ∀ c, P base c → ¬Unfinished c → c ≠ v → T.Recurs base)
    (hpackage : package.typeDefinitions = s.package.typeDefinitions ++ ds)
    (hds : ∀ d ∈ ds, d.ty = some v)
    (hregistered : e.ty.structureKind?.isSome → ∃ x, e'.symbol = some x ∧ ∃ d ∈ ds, d.symbol = x) :
    Provenance T Reg Abandoned Unfinished P ({ s with package }.remembering base ty v) where
  grows := h.grows
  same := h.same
  unique := h.unique
  source := h.source
  clone := h.clone
  finished := by
    intro b c d d' hc hunfinished hd hd'
    by_cases hcv : c = v
    · subst hcv
      obtain rfl := h.unique hc hP
      obtain rfl := Except.ok.inj (hv.symm.trans hd')
      obtain rfl := (hd.unique hu.self).2
      have hm : ({ s with package }.remembering b ty c).memo.get? b = some c := by
        rw [Session.get?_remembering]
        simp
      refine ⟨hmirrors, by simp [hm], fun _ => hm, fun hs => ?_⟩
      obtain ⟨x, hx, f, hf, hfx⟩ := hregistered hs
      exact ⟨x, hx, .inr ⟨f, hpackage ▸ List.mem_append_right _ hf, hfx⟩⟩
    · exact h.finished_remembering hu hsole hpackage hc hunfinished hcv hd hd'
  unfinished hr := h.unfinished (.inl hr)
  pending := by
    rintro b c (hb : s.pending.get? b = some c)
    obtain ⟨hc, hunfinished, hmemo⟩ := h.pending hb
    have hbb : b ≠ base := by
      rintro rfl
      simp [hbase] at hb
    have hbty : b ≠ ty := by
      rintro rfl
      simp [hty] at hb
    refine ⟨hc, hunfinished.resolve_right ?_, ?_⟩
    · rintro rfl
      exact hbb (h.unique hc hP)
    · rw [Session.get?_remembering, if_neg hbty, if_neg hbb]
      exact hmemo
  memo := by
    intro k w hk
    rw [Session.get?_remembering] at hk
    split at hk
    · rename_i heq
      obtain rfl := Option.some.inj hk
      exact ⟨hnot, base, e, heq ▸ hu, hP⟩
    · split at hk
      · rename_i heq
        obtain rfl := Option.some.inj hk
        exact ⟨hnot, base, e, heq ▸ hu.self, hP⟩
      · obtain ⟨hunfinished, hrest⟩ := h.memo hk
        exact ⟨fun hr => hunfinished (.inl hr), hrest⟩
  abandoned := h.abandoned
  all := h.all
  definitions := by
    intro d c hd hc
    have hd : d ∈ s.package.typeDefinitions ++ ds := hpackage ▸ hd
    rcases List.mem_append.1 hd with hd | hd
    · rcases h.definitions hd hc with hlt | ⟨b, hb, hunfinished⟩
      · exact .inl hlt
      · exact .inr ⟨b, hb, fun hr => hunfinished (.inl hr)⟩
    · obtain rfl := Option.some.inj ((hds d hd).symm.trans hc)
      exact .inr ⟨base, hP, hnot⟩

/-- **What was left behind can be forgotten** if nothing is pending and no finished clone is made of
it. -/
theorem forget (h : Provenance T Reg Abandoned Unfinished P s)
    (hidle : ∀ b, s.pending.get? b = none)
    (hneeded : ∀ {b c e}, P b c → ¬Unfinished c → T.Unfolds b b e → s.memo.get? b ≠ none →
      ∀ m ∈ e.ty.members, ∀ b' e' w, T.Unfolds m b' e' → P b' w → ¬Unfinished w) :
    Provenance T Reg (fun x => Abandoned x ∨ Unfinished x) (fun _ => False)
      (fun b x => P b x ∧ ¬Unfinished x) s where
  grows := h.grows
  same := h.same
  unique hP hP' := h.unique hP.1 hP'.1
  source hP := h.source hP.1
  clone hP := h.clone hP.1
  finished := by
    rintro b c e e' ⟨hP, hunfinished⟩ - he he'
    have hf := h.finished hP hunfinished he he'
    refine ⟨hf.mirrors.imp (fun m hm w hw => ?_) (fun _ _ => Iff.rfl), hf.remembered, hf.sole,
      hf.registered⟩
    rcases hw with hself | ⟨b', d, hb', hPw⟩
    · exact .inl hself
    · exact .inr ⟨b', d, hb', hPw, hneeded hP hunfinished he hf.remembered m hm b' d w hb' hPw⟩
  unfinished hf := hf.elim
  pending hb := absurd ((hidle _).symm.trans hb) (by simp)
  memo := by
    intro k v hk
    obtain ⟨hunfinished, b, e, hu, hP⟩ := h.memo hk
    exact ⟨id, b, e, hu, hP, hunfinished⟩
  abandoned := by
    rintro c (habandoned | hunfinished)
    · obtain ⟨hlt, hnot⟩ := h.abandoned habandoned
      exact ⟨hlt, fun b hP => hnot b hP.1⟩
    · obtain ⟨b, hP⟩ := h.unfinished hunfinished
      exact ⟨h.lt_size hP, fun b' hP' => hP'.2 hunfinished⟩
  all := by
    intro i e' hi he'
    rcases h.all hi he' with hinv | habandoned | ⟨b, hP⟩
    · exact .inl hinv
    · exact .inr (.inl (.inl habandoned))
    · by_cases hunfinished : Unfinished ⟨i⟩
      · exact .inr (.inl (.inr hunfinished))
      · exact .inr (.inr ⟨b, hP, hunfinished⟩)
  definitions hd hc := (h.definitions hd hc).imp_right fun ⟨b, hP, hunfinished⟩ =>
    ⟨b, ⟨hP, hunfinished⟩, id⟩

end Provenance

end StructuralTypes
