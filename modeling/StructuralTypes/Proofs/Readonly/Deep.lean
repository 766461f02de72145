import StructuralTypes.Proofs.Readonly.Frame

/-!
# Deep immutability

A type is settled if it is readonly, or if references lead from it to a type that is. A table is
deep if all types flagged as readonly are made of settled types: then whoever starts at a settled
type, and goes to what it is made of, comes to settled types only.

Requests keep tables deep, also those that fail. The clone of a structure is flagged from the first
moment on, while what it is made of changes with each step of its filling; so the search is shown to
keep what `Session.Deep X` says, where the clones in `X` are excused. A clone that is finished, or
given up, is made of variants that the search has given, which are settled, and needs no excuse.

Results:
* `TypeTable.Settled.parts`: a settled type leads to settled types only.
* `Session.Deep.changesOnlyClone`: work on an excused clone.
* `Cloner.Visits.deep`: what visits give is settled.
* `Synth.readonlyWithin_deepens`: a search keeps tables deep and gives settled types.
* **`request_deeplyReadonly`**: so do requests, whether they are answered or not.
-/

namespace StructuralTypes

/-! ## Deep tables -/

namespace TypeTable

variable {T U : TypeTable} {X : TypeId → Prop} {ty m : TypeId} {e : TypeEntry}

/-- The type is flagged as readonly. -/
def Flagged (T : TypeTable) (ty : TypeId) : Prop :=
  ∃ e, T.find ty = .ok e ∧ e.flags.contains (.only .readonly)

theorem Flagged.grows (hg : T.Grows U) (h : T.Flagged ty) : U.Flagged ty :=
  h.imp fun _ he => ⟨hg.find he.1, he.2⟩

theorem settled_of_isReadonly (h : T.isReadonly ty = .ok true) : T.Settled ty := ⟨ty, .refl, h⟩

theorem Flagged.settled (h : T.Flagged ty) : T.Settled ty := by
  obtain ⟨e, he, hflags⟩ := h
  refine settled_of_isReadonly (isReadonly_eq_ok_iff.2 ⟨e, he, ?_⟩)
  simp [TypeEntry.isReadonly, hflags]

/-- All types flagged as readonly, but for those in `X`, are made of settled types. -/
def DeepBut (T : TypeTable) (X : TypeId → Prop) : Prop :=
  ∀ ty e, ¬X ty → T.find ty = .ok e → e.flags.contains (.only .readonly) →
    ∀ m ∈ e.ty.members, T.Settled m

/-- A type leads to what it is made of, and a reference to its target, unless the reference claims
to be readonly itself. -/
def LeadsTo (T : TypeTable) (ty m : TypeId) : Prop :=
  ∃ e, T.find ty = .ok e ∧ (m ∈ e.ty.members ∨ e.ty = .ref m ∧ e.isReadonly = false)

/-- In a deep table, a settled type leads to settled types. -/
theorem Settled.part (hT : T.DeepBut fun _ => False) (h : T.Settled ty) (hm : T.LeadsTo ty m) :
    T.Settled m := by
  obtain ⟨u, hchain, hr⟩ := h
  obtain ⟨e, he, hm⟩ := hm
  rcases hchain.cases_head with rfl | ⟨target, ⟨d, hd, ht⟩, hrest⟩
  · -- the type is readonly itself
    obtain ⟨d, hd, hro⟩ := isReadonly_eq_ok_iff.1 hr
    obtain rfl := Except.ok.inj (he.symm.trans hd)
    rcases hm with hm | ⟨-, hw⟩
    · rcases Bool.or_eq_true_iff.1 hro with hflags | hunwritable
      · exact hT ty e id he hflags m hm
      · simp [Ty.members_eq_nil hunwritable] at hm
    · simp [hro] at hw
  · obtain rfl := Except.ok.inj (he.symm.trans hd)
    rcases hm with hm | ⟨ht', -⟩
    · simp [ht, Ty.members] at hm
    · obtain rfl : target = m := Ty.ref.inj (ht.symm.trans ht')
      exact ⟨u, hrest, hr⟩

/-- **In a deep table, a settled type leads to settled types only**, however far one goes. -/
theorem Settled.parts (hT : T.DeepBut fun _ => False) (h : T.Settled ty)
    (hm : Relation.ReflTransGen T.LeadsTo ty m) : T.Settled m := by
  induction hm with
  | refl => exact h
  | tail _ hstep ih => exact ih.part hT hstep

end TypeTable

/-- Work on a structure flagged as readonly unsettles no type. -/
theorem ChangesOnlyClone.settled {clone : TypeId} {t u : Session} {e : TypeEntry}
    (h : ChangesOnlyClone clone t u)
    (he : t.types.find clone = .ok e) (hk : e.ty.structureKind?.isSome) {m : TypeId}
    (hm : t.types.Settled m) : u.types.Settled m := by
  obtain ⟨w, hchain, hr⟩ := hm
  refine ⟨w, Relation.ReflTransGen.mono (fun _ _ href => h.refersTo he hk href) _ _ hchain, ?_⟩
  obtain ⟨d, hd, hro⟩ := TypeTable.isReadonly_eq_ok_iff.1 hr
  by_cases hw : w = clone
  · subst hw
    obtain rfl := Except.ok.inj (he.symm.trans hd)
    obtain ⟨body, -, hbody⟩ := h.clone e he
    refine TypeTable.isReadonly_eq_ok_iff.2 ⟨_, hbody, ?_⟩
    rcases Bool.or_eq_true_iff.1 hro with hflags | hunwritable
    · simp [TypeEntry.isReadonly, hflags]
    · cases hty : e.ty <;> simp_all [Ty.structureKind?, Ty.isUnwritable]
  · exact TypeTable.isReadonly_eq_ok_iff.2 ⟨d, h.kept w d hw hd, hro⟩

/-! ## Deep sessions -/

/-- Readonly types are made of settled types, but for the clones in `X`, and what is known as a
variant is flagged as readonly. -/
structure Session.Deep (X : TypeId → Prop) (s : Session) : Prop where
  /-- The type without values is readonly. -/
  never : s.types.Settled Builtin.never
  /-- The table is deep, with exceptions. -/
  members : s.types.DeepBut X
  /-- Remembered variants are flagged. -/
  memo : ∀ {k v}, s.memo.get? k = some v → s.types.Flagged v
  /-- Unfinished clones are flagged. -/
  pending : ∀ {k v}, s.pending.get? k = some v → s.types.Flagged v

namespace Session.Deep

variable {X : TypeId → Prop} {s s₁ t u : Session} {ty base c m v : TypeId} {e : TypeEntry}
  {d : Draft}

/-- **What is at hand is settled.** -/
theorem settled_of_atHand (h : s.Deep X) (hv : s.AtHand ty v) : s.types.Settled v := by
  have hknown : ∀ {k}, s.known? k = some v → s.types.Settled v := fun hk =>
    (known?_eq_some_iff.1 hk).elim (fun hp => (h.pending hp).settled)
      fun hm => (h.memo hm.2).settled
  cases hv with
  | known hk => exact hknown hk
  | readonly _ hr => exact TypeTable.settled_of_isReadonly hr
  | baseKnown _ _ _ hk => exact hknown hk
  | baseReadonly _ _ himplied _ hr => exact ⟨_, TypeTable.chain_of_implied himplied, hr⟩

/-- A type made of settled types is added. -/
theorem add (h : s.Deep X) (he : e.flags.contains (.only .readonly) →
    ∀ m ∈ e.ty.members, s.types.Settled m) :
    Deep X { s with types := (s.types.add e).2 } := by
  have hg : s.types.Grows (s.types.add e).2 := Grows.push _ _
  refine ⟨h.never.grows hg, fun ty d hX hd hflags m hm => ?_, fun hk => (h.memo hk).grows hg,
    fun hk => (h.pending hk).grows hg⟩
  by_cases hlt : ty.index < s.types.entries.size
  · exact (h.members ty d hX (hg.find_of_lt hd hlt) hflags m hm).grows hg
  · obtain rfl : ty = ⟨s.types.entries.size⟩ := by
      have hadded := TypeTable.lt_of_find hd
      simp only [TypeTable.add, Array.size_push] at hadded
      exact congrArg TypeId.mk (by omega)
    obtain rfl := Except.ok.inj (hd.symm.trans (TypeTable.find_add_self s.types e))
    exact (he hflags m hm).grows hg

/-- A clone that is made of settled types needs no excuse. -/
theorem unexcuse (h : s.Deep fun x => X x ∨ x = c) (hc : s.types.find c = .ok e)
    (hm : ∀ m ∈ e.ty.members, s.types.Settled m) : s.Deep X := by
  refine { h with members := fun ty d hX hd hflags => ?_ }
  by_cases hty : ty = c
  · subst hty
    obtain rfl := Except.ok.inj (hc.symm.trans hd)
    exact hm
  · exact h.members ty d (fun hx => hx.elim hX hty) hd hflags

/-- Other clones that are flagged may be pending. -/
theorem of_pending {p : CloneMap} (h : s.Deep X)
    (hp : ∀ k v, p.get? k = some v → s.types.Flagged v) : Deep X { s with pending := p } :=
  { h with pending := fun hk => hp _ _ hk }

/-- A variant that is flagged is remembered. -/
theorem remembering (h : s.Deep X) (hv : s.types.Flagged v) (base ty : TypeId) :
    (s.remembering base ty v).Deep X := by
  refine { h with memo := fun {k w} hk => ?_ }
  rw [get?_remembering] at hk
  split at hk
  · exact Option.some.inj hk ▸ hv
  · split at hk
    · exact Option.some.inj hk ▸ hv
    · exact h.memo hk

/-- A draft is excused. -/
theorem drafts (h : s.Deep X) (hd : s.Drafts base e d s₁) :
    s₁.Deep fun x => X x ∨ x = d.clone := by
  obtain ⟨body, hk, htypes⟩ := hd.types
  have hg : s.types.Grows s₁.types := htypes ▸ Grows.push _ _
  have hclone : s₁.types.Flagged d.clone := by
    refine ⟨d.entry body, ?_, by simp [Draft.entry, hd.flags]⟩
    rw [htypes, hd.clone]
    exact TypeTable.find_add_self s.types _
  refine ⟨h.never.grows hg, fun ty e' hX he' hflags m hm => ?_, fun hk => ?_, fun {k v} hk => ?_⟩
  · have hlt : ty.index < s.types.entries.size := by
      have hadded := TypeTable.lt_of_find he'
      have hne : ty.index ≠ s.types.entries.size := fun heq =>
        hX (.inr (congrArg TypeId.mk (heq.trans hd.clone_index.symm)))
      rw [htypes, Array.size_push] at hadded
      omega
    exact (h.members ty e' (fun hx => hX (.inl hx)) (hg.find_of_lt he' hlt) hflags m hm).grows hg
  · rw [hd.memo] at hk
    exact (h.memo hk).grows hg
  · rw [hd.pending, OrderedMap.get?_insert] at hk
    split at hk
    · exact Option.some.inj hk ▸ hclone
    · exact (h.pending hk).grows hg

/-- **Work on an excused clone** keeps the table deep, and unsettles no type. -/
theorem changesOnlyClone (h : t.Deep X) (hc : X c) (he : t.types.find c = .ok e)
    (hk : e.ty.structureKind?.isSome) (hw : ChangesOnlyClone c t u) :
    u.Deep X ∧ ∀ m, t.types.Settled m → u.types.Settled m := by
  have hsettled : ∀ m, t.types.Settled m → u.types.Settled m := fun m hm => hw.settled he hk hm
  have hflagged : ∀ v, t.types.Flagged v → u.types.Flagged v := by
    rintro v ⟨d, hd, hflags⟩
    by_cases hv : v = c
    · subst hv
      obtain ⟨body, -, hbody⟩ := hw.clone d hd
      exact ⟨_, hbody, hflags⟩
    · exact ⟨d, hw.kept v d hv hd, hflags⟩
  refine ⟨⟨hsettled _ h.never, fun ty d hX hd hflags m hm => ?_, fun hk => ?_, fun hk => ?_⟩,
    hsettled⟩
  · have hne : ty ≠ c := fun heq => hX (heq ▸ hc)
    by_cases hlt : ty.index < t.types.entries.size
    · obtain ⟨d', hd'⟩ := TypeTable.exists_find hlt
      obtain rfl := Except.ok.inj (hd.symm.trans (hw.kept ty d' hne hd'))
      exact hsettled m (h.members ty d hX hd' hflags m hm)
    · have hinv := hw.added ty.index d (Nat.le_of_not_lt hlt) (TypeTable.find_eq_ok_iff.1 hd)
      cases hty : d.ty <;> simp_all [Ty.isInvokable, Ty.members]
  · exact hflagged _ (h.memo (hw.memo ▸ hk))
  · exact hflagged _ (h.pending (hw.pending ▸ hk))

end Session.Deep

/-! ## What a cloner keeps deep -/

/-- The cloner keeps sessions deep, whichever clones are excused, and gives settled types. -/
structure Cloner.Deepens (cl : Cloner) : Prop where
  /-- When it gives a variant. -/
  gives : ∀ {X s ty v t}, s.Deep X → cl.Gives s ty v t → t.Deep X ∧ t.types.Settled v
  /-- When it stops. -/
  breaks : ∀ {X s ty x t}, s.Deep X → cl.Breaks s ty x t → t.Deep X

section Deepening

variable {ctx : Context} {cl : Cloner} {W : Session → Session → Prop} {X : TypeId → Prop}
  {s s₁ t : Session} {ty base v : TypeId} {e : TypeEntry} {d : Draft} {ms vs : List TypeId}
  {x : Stop} (hcl : cl.Keeps) (hdeep : cl.Deepens)

include hcl hdeep

/-- **What visits give is settled**, if other work keeps the session deep and unsettles no type. -/
theorem Cloner.Visits.deep (h : cl.Visits W s ms vs t) (hs : s.Deep X)
    (hwork : ∀ {ms vs t u}, cl.Visits W s ms vs t → t.Deep X → W t u →
      u.Deep X ∧ ∀ m, t.types.Settled m → u.types.Settled m) :
    t.Deep X ∧ ∀ v ∈ vs, t.types.Settled v := by
  induction h with
  | start => exact ⟨hs, by simp⟩
  | visit before gives ih =>
    obtain ⟨ht, hvs⟩ := ih
    obtain ⟨hu, hv⟩ := hdeep.gives ht gives
    refine ⟨hu, fun w hw => ?_⟩
    rcases List.mem_append.1 hw with hw | hw
    · exact (hvs w hw).grows (hcl.gives gives).keeps.types
    · exact List.mem_singleton.1 hw ▸ hv
  | work before hW ih =>
    obtain ⟨ht, hvs⟩ := ih
    obtain ⟨hu, hstay⟩ := hwork before ht hW
    exact ⟨hu, fun w hw => hstay w (hvs w hw)⟩

/-- So it is while a clone is filled, which is excused. -/
theorem Cloner.Visits.deep_drafting (h : cl.Visits (ChangesOnlyClone d.clone) s₁ ms vs t)
    (hs : s.Deep X) (hd : s.Drafts base e d s₁) :
    t.Deep (fun x => X x ∨ x = d.clone) ∧ ∀ v ∈ vs, t.types.Settled v := by
  refine h.deep hcl hdeep (hs.drafts hd) fun before ht hW => ?_
  obtain ⟨body, hbody, hk⟩ := (Session.Drafting.of_visits hcl hd before).body
  exact ht.changesOnlyClone (.inr rfl) hbody (by simp [Draft.entry, hk]) hW

/-- A clone that is given up is made of settled types, as far as it has come. -/
theorem Abandons.deep (h : Abandons ctx cl s base e x t) (hs : s.Deep X) : t.Deep X := by
  cases h with
  | early => exact hs
  | @late d s₁ u vs body _ drafts stops entry made keeps =>
    have hu : u.Deep (fun x => X x ∨ x = d.clone) ∧ ∀ v ∈ vs, u.types.Settled v := by
      cases stops with
      | call split before breaks =>
        obtain ⟨ht, hvs⟩ := before.deep_drafting hcl hdeep hs drafts
        exact ⟨hdeep.breaks ht breaks, fun v hv => (hvs v hv).grows (hcl.breaks breaks).keeps.types⟩
      | work part before hindered => exact before.deep_drafting hcl hdeep hs drafts
    have hmade : ∀ m ∈ body.members, u.types.Settled m := fun m hm =>
      (made m hm).elim (fun hn => hn ▸ hu.1.never) (hu.2 m)
    exact (hu.1.unexcuse entry hmade).of_pending fun k v hk => (hs.pending hk).grows keeps.types

/-- A clone that is finished is made of settled types. -/
theorem Clones.deep (h : Clones cl s base e v t) (hs : s.Deep X) :
    t.Deep X ∧ t.types.Flagged v := by
  cases h with
  | @intro d s₁ u vs body definition drafts visits entry filled keeps =>
    obtain ⟨hu, hvs⟩ := visits.deep_drafting hcl hdeep hs drafts
    have hmade : ∀ m ∈ body.members, u.types.Settled m := fun m hm =>
      (filled.madeOf m hm).elim (fun hn => hn ▸ hu.never) (hvs m)
    have hdone := (hu.unexcuse entry hmade).of_pending (p := s.pending) fun k v hk =>
      (hs.pending hk).grows keeps.types
    refine ⟨⟨hdone.never, hdone.members, hdone.memo, hdone.pending⟩, _, entry, ?_⟩
    simp [Draft.entry, drafts.flags]

/-- A step that gives a variant keeps the session deep, and the variant is settled. -/
theorem StepsTo.deep (h : StepsTo cl s ty v t) (hs : s.Deep X) :
    t.Deep X ∧ t.types.Settled v := by
  cases h with
  | atHand hand => exact ⟨hs, hs.settled_of_atHand hand⟩
  | @rebuilt base e vs u opens rebuilt visits =>
    obtain ⟨hu, hvs⟩ := visits.deep hcl hdeep hs fun _ ht heq => heq ▸ ⟨ht, fun _ hm => hm⟩
    have hwith : (u.withVariant e vs).Deep X := hu.add fun _ m hm =>
      hvs m (Ty.mem_of_mem_members_rebuild rebuilt visits.length_eq hm)
    have hv : (u.withVariant e vs).types.Flagged ⟨u.types.entries.size⟩ :=
      ⟨_, TypeTable.find_add_self u.types _, by simp⟩
    exact ⟨hwith.remembering hv base ty, hv.settled⟩
  | @cloned base v e u opens structured clones =>
    obtain ⟨hu, hv⟩ := clones.deep hcl hdeep hs
    exact ⟨hu.remembering hv base ty, hv.settled⟩

/-- So does one that stops. -/
theorem StepStops.deep (h : StepStops ctx cl s ty x t) (hs : s.Deep X) : t.Deep X := by
  cases h with
  | refused => exact hs
  | rebuilding opens rebuilt split before breaks =>
    obtain ⟨hu, -⟩ := before.deep hcl hdeep hs fun _ ht heq => heq ▸ ⟨ht, fun _ hm => hm⟩
    exact hdeep.breaks hu breaks
  | cloning opens structured abandons => exact abandons.deep hcl hdeep hs

end Deepening

/-- **A search keeps sessions deep and gives settled types.** -/
theorem Synth.readonlyWithin_deepens (ctx : Context) (n : Nat) :
    (readonlyWithin ctx n).Deepens := by
  refine readonlyWithin_induction ctx (fun cl hnone hstop => ?_)
    (fun m cl ih hgives hbreaks => ?_) n
  · constructor
    · intro X s ty v t _ h
      exact absurd h hnone
    · intro X s ty x t hs h
      obtain ⟨-, rfl⟩ := hstop h
      exact hs
  · have hcl := readonlyWithin_keeps ctx m
    constructor
    · intro X s ty v t hs h
      exact (hgives h).deep hcl ih hs
    · intro X s ty x t hs h
      exact (hbreaks h).deep hcl ih hs

/-! ## Requests -/

namespace Compilation

variable {slots : CloneSlots} {c c' : Compilation} {r : CloneRequest} {package : Package}
  {t : Session} {v : TypeId}

/-- All that is flagged as readonly is made of settled types, and the clones in the slots are
flagged. -/
structure DeeplyReadonly (slots : CloneSlots) (c : Compilation) : Prop where
  /-- The builtin types are what they are. -/
  builtins : TypeTable.initial.Grows c.types
  /-- What is flagged as readonly is made of settled types. -/
  members : ∀ ty e, c.types.find ty = .ok e → e.flags.contains (.only .readonly) →
    ∀ m ∈ e.ty.members, c.types.Settled m
  /-- Remembered variants are flagged. -/
  memo : ∀ k v, (c.memo slots.memo).get? k = some v → c.types.Flagged v
  /-- Unfinished clones are flagged. -/
  pending : ∀ k v, (c.pending slots.pending).get? k = some v → c.types.Flagged v

/-- A session in a package is deep. -/
theorem DeeplyReadonly.session (h : c.DeeplyReadonly slots) (package : Package) :
    (c.session package slots).Deep fun _ => False where
  never := by
    refine TypeTable.settled_of_isReadonly (h.builtins.isReadonly (b := true) ?_)
    rfl
  members ty e _ he := h.members ty e he
  memo hk := h.memo _ _ hk
  pending hk := h.pending _ _ hk

/-- What a deep session has made is kept. -/
theorem DeeplyReadonly.keep (h : c.DeeplyReadonly slots) (hg : c.types.Grows t.types)
    (ht : t.Deep fun _ => False) (i : Nat) : (c.keep i slots t).DeeplyReadonly slots where
  builtins := Grows.trans h.builtins hg
  members ty e he := ht.members ty e id he
  memo k v hk := by
    rw [memo_keep, if_pos rfl] at hk
    exact ht.memo hk
  pending k v hk := by
    rw [pending_keep, if_pos rfl] at hk
    exact ht.pending hk

/-- A request keeps all this, whether it is answered or not. -/
theorem DeeplyReadonly.attempt (h : c.DeeplyReadonly slots) (r : CloneRequest) :
    (attempt slots c r).DeeplyReadonly slots := by
  rcases attempt_eq slots c r with heq | ⟨ctx, n, package, t, -, hleads, heq⟩
  · rw [heq]
    exact h
  · rw [heq]
    have hdeep := Synth.readonlyWithin_deepens ctx n
    have hs := h.session package
    refine h.keep ((Synth.readonlyWithin_keeps ctx n).leads hleads).keeps.types ?_ _
    rcases hleads with ⟨v, hv⟩ | ⟨x, hx⟩
    · exact (hdeep.gives hs hv).1
    · exact hdeep.breaks hs hx

/-- So does any number of requests. -/
theorem DeeplyReadonly.attempts (h : c.DeeplyReadonly slots) (rs : List CloneRequest) :
    (attempts slots rs c).DeeplyReadonly slots := by
  induction rs using List.reverseRecOn with
  | nil => exact h
  | append_singleton rs r ih =>
    rw [attempts_append_singleton]
    exact ih.attempt r

/-- An answer is settled. -/
theorem DeeplyReadonly.settled_of_ok (h : c.DeeplyReadonly slots)
    (hr : request slots r c = .ok v c') : c'.types.Settled v := by
  obtain ⟨package, t, -, hv, rfl⟩ := request_eq_ok hr
  exact ((Synth.readonlyWithin_deepens _ _).gives (h.session package) ⟨r.stamp, hv⟩).2

/-- **Readonly types stay immutable in depth.** If everything flagged as readonly is made of settled
types, and the clones in the slots are flagged, then this is so after any request, whether it is
answered or not; an answer is settled; and from no settled type does one come to a type that is
not. -/
theorem request_deeplyReadonly (c : Compilation) (slots : CloneSlots) (r : CloneRequest)
    (h : c.DeeplyReadonly slots) :
    (attempt slots c r).DeeplyReadonly slots ∧
      (∀ v c', request slots r c = .ok v c' → c'.types.Settled v) ∧
      ∀ ty m, (attempt slots c r).types.Settled ty →
        Relation.ReflTransGen (attempt slots c r).types.LeadsTo ty m →
          (attempt slots c r).types.Settled m := by
  have hdone := h.attempt r
  refine ⟨hdone, fun v c' hr => h.settled_of_ok hr, fun ty m hty hm => ?_⟩
  exact hty.parts (fun ty e _ he => hdone.members ty e he) hm

/-- Where nothing is flagged and no clone is known, nothing has to be shown. -/
theorem deeplyReadonly_app {named : List (String × TypeId)} {own : List TypeEntry}
    (h : ∀ e ∈ (app named own).types.entries, ¬e.flags.contains (.only .readonly)) :
    (app named own).DeeplyReadonly slots where
  builtins := by
    show _ <+: (TypeTable.initial.entries ++ own.toArray).toList
    rw [Array.toList_append]
    exact List.prefix_append _ _
  members ty e he hflags := absurd hflags (TypeTable.forall_find_iff.2 h ty e he)
  memo k v hk := by simp [memo, app] at hk
  pending k v hk := by simp [pending, app] at hk

/-- The request for the outer record of `broken` fails and leaves a clone without fields behind; the
variant of the inner record is made of that clone, which is readonly. -/
theorem broken_deeplyReadonly :
    broken.DeeplyReadonly {} ∧ (attempt {} broken (appRequest ⟨14⟩)).DeeplyReadonly {} ∧
      ∃ c', request {} (appRequest ⟨15⟩) (attempt {} broken (appRequest ⟨14⟩)) = .ok ⟨17⟩ c' ∧
        c'.types.Settled ⟨17⟩ := by
  have hstart : broken.DeeplyReadonly {} := deeplyReadonly_app (by decide)
  have hfirst := request_deeplyReadonly broken {} (appRequest ⟨14⟩) hstart
  have hrun : answers? (request {} (appRequest ⟨15⟩) (attempt {} broken (appRequest ⟨14⟩))) =
      some ⟨17⟩ := by
    decide +kernel
  obtain ⟨c', hc'⟩ := answers?_eq_some hrun
  exact ⟨hstart, hfirst.1, c', hc',
    (request_deeplyReadonly _ {} (appRequest ⟨15⟩) hfirst.1).2.1 _ c' hc'⟩

end Compilation

end StructuralTypes
