import StructuralTypes.Proofs.Readonly.Step

/-!
# What a finished search has finished

When the search for the variant of a type ends with one, the type is open no more, and neither is
any type below it: `Session.Closes` says that whatever was closed on the way has closed members. So
a type that stays open whatever is done, like one on a circle of maps and unions, is never found
below a type that got a variant.

Results:
* **`Synth.gives_closes`**: a search that gives a variant closes the type and all that it closes
  below.
* **`Synth.gives_leavesOpen`**: types that lead only round among themselves stay open.
-/

namespace StructuralTypes

namespace Session

variable {s t u : Session} {ty base m : TypeId} {e : TypeEntry}

/-- What is open in `s` and not in `t` has no member that is open in `t`. -/
def Closes (s t : Session) : Prop :=
  ∀ ty base e, s.Opens ty base e → ¬t.Open ty → ∀ m ∈ e.ty.members, ¬t.Open m

/-- The types in `C` are open maps and unions that lead to types in `C`. -/
def Traps (s : Session) (C : TypeId → Prop) : Prop :=
  ∀ ty, C ty → ∃ base e, s.Opens ty base e ∧ e.ty.isRebuilt ∧ ∃ m ∈ e.ty.members, C m

theorem Knows.not_open (h : s.Knows t) (ho : ¬s.Open ty) : ¬t.Open ty := by
  rintro ⟨base, e, hopens⟩
  exact ho ⟨base, e, h.opens hopens⟩

/-- The session `t` knows variants of `ty` and its base in addition to what `u` knows. -/
structure Learns (u : Session) (base ty : TypeId) (t : Session) : Prop where
  /-- Both lead the same ways. -/
  same : u.types.SameWritable t.types
  /-- What was known is known. -/
  known : ∀ k, t.known? k = none → u.known? k = none
  /-- Nothing else is. -/
  only : ∀ k, u.known? k = none → t.known? k ≠ none → k = base ∨ k = ty

theorem Learns.knows (h : u.Learns base ty t) : u.Knows t := ⟨h.same, h.known⟩

/-- What has another base stays open. -/
theorem Learns.opens (h : u.Learns base ty t) (hu : u.types.Unfolds ty base e) {x b : TypeId}
    {d : TypeEntry} (hx : u.Opens x b d) (hne : b ≠ base) : t.Opens x b d := by
  have hk : ∀ k, u.types.Unfolds k b d → u.known? k = none → t.known? k = none := by
    intro k hunfolds hnone
    by_contra hsome
    rcases h.only k hnone hsome with rfl | rfl
    · exact hne (hunfolds.unique hu.self).1
    · exact hne (hunfolds.unique hu).1
  exact hx.of_eq h.same (hk x hx.unfolds hx.unknown) (hk b hx.unfolds.self hx.base_unknown)

/-- What is open in `s` and not in `t`, and has another base than `base`, has no member that is open
in `t`. -/
def ClosesBut (s : Session) (base : TypeId) (t : Session) : Prop :=
  ∀ ty b e, s.Opens ty b e → ¬t.Open ty → b = base ∨ ∀ m ∈ e.ty.members, ¬t.Open m

theorem closes_of_knows (h : t.Knows s) : s.Closes t :=
  fun _ base e ho hnot => absurd ⟨base, e, h.opens ho⟩ hnot

theorem Closes.but (h : s.Closes t) (base : TypeId) : s.ClosesBut base t :=
  fun ty b e ho hnot => .inr (h ty b e ho hnot)

theorem ClosesBut.closes (h : s.ClosesBut base t) (hst : s.Knows t) (htu : t.Knows u)
    (hc : t.Closes u) : s.ClosesBut base u := by
  intro x b d hx hnot
  by_cases hopen : t.Open x
  · obtain ⟨b', d', hx'⟩ := hopen
    obtain ⟨rfl, rfl⟩ := hx'.unfolds.unique (hst.same.unfolds_iff.1 hx.unfolds)
    exact .inr (hc x _ _ hx' hnot)
  · exact (h x b d hx hopen).imp id fun hm m hmem => htu.not_open (hm m hmem)

/-- Once all members are closed, the type that they are members of can be closed. -/
theorem closes_of_members (ho : s.Opens ty base e) (hsu : s.Knows u)
    (hclosed : s.ClosesBut base u)
    (hmembers : ∀ m ∈ e.ty.members, ¬u.Open m) (hl : u.Learns base ty t)
    (hty : t.known? ty ≠ none) : ¬t.Open ty ∧ s.Closes t := by
  have hunfolds := hsu.same.unfolds_iff.1 ho.unfolds
  refine ⟨fun ⟨_, _, h⟩ => hty h.unknown, fun x b d hx hnot m hm => ?_⟩
  by_cases hb : b = base
  · subst hb
    obtain rfl := (hx.unfolds.self.unique ho.unfolds.self).2
    exact hl.knows.not_open (hmembers m hm)
  · -- `x` cannot have been closed by the last step, so it was closed before
    have hxu : ¬u.Open x := by
      rintro ⟨b', d', hx'⟩
      obtain ⟨rfl, rfl⟩ := hx'.unfolds.unique (hsu.same.unfolds_iff.1 hx.unfolds)
      exact hnot ⟨_, _, hl.opens hunfolds hx' hb⟩
    rcases hclosed x b d hx hxu with heq | hd
    · exact absurd heq hb
    · exact hl.knows.not_open (hd m hm)

/-- Types that lead round among themselves stay so if the base that is closed is none of theirs. -/
theorem Traps.learns {C : TypeId → Prop} (h : u.Traps C) (hl : u.Learns base ty t)
    (hu : u.types.Unfolds ty base e) (hne : ∀ x b d, C x → u.Opens x b d → b ≠ base) :
    t.Traps C := by
  intro x hx
  obtain ⟨b, d, hopens, hr, hm⟩ := h x hx
  exact ⟨b, d, hl.opens hu hopens (hne x b d hx hopens), hr, hm⟩

theorem Drafting.knows {d : Draft} (h : s.Drafting base d t) : s.Knows t := by
  refine ⟨h.same, fun k hk => ?_⟩
  rw [known?_eq_none_iff, h.pending, OrderedMap.get?_insert] at hk
  rw [known?_eq_none_iff]
  obtain ⟨hp, hm⟩ := hk
  split at hp
  · simp at hp
  · refine ⟨hp, ?_⟩
    cases hs : s.memo.get? k with
    | none => rfl
    | some v => exact absurd (hm.symm.trans (h.memo k v hs)) (by simp)

/-- Work on the clone makes nothing known. -/
theorem Drafting.knows_changesOnlyClone {d : Draft} {s₁ : Session} (h : s.Drafting base d t)
    (hd : s.Drafts base e d s₁) (hw : ChangesOnlyClone d.clone t u) : t.Knows u ∧ u.Knows t := by
  have hsame : t.types.SameWritable u.types := h.same.symm.trans (h.changesOnlyClone hd hw).same
  have hk : ∀ k, t.known? k = none ↔ u.known? k = none := fun k => by
    rw [known?_eq_none_iff, known?_eq_none_iff, hw.memo, hw.pending]
  exact ⟨⟨hsame, fun k => (hk k).2⟩, ⟨hsame.symm, fun k => (hk k).1⟩⟩

/-! ## The steps at which something becomes known -/

/-- Nothing that a rebuilt type says leads on. -/
theorem sameWritable_withVariant (hr : e.ty.isRebuilt) (vs : List TypeId) :
    u.types.SameWritable (u.withVariant e vs).types := by
  refine .push ?_
  rintro (hw | ⟨target, ht⟩)
  · simp [TypeEntry.isReadonly] at hw
  · cases hety : e.ty <;> simp_all [Ty.rebuild, Ty.isRebuilt]

theorem known?_remembering_eq_none_iff {v k : TypeId} :
    (t.remembering base ty v).known? k = none ↔
      t.pending.get? k = none ∧ k ≠ base ∧ k ≠ ty ∧ t.memo.get? k = none := by
  rw [known?_eq_none_iff, get?_remembering]
  show t.pending.get? k = none ∧ _ ↔ _
  by_cases hty : k = ty
  · simp [hty]
  · by_cases hbase : k = base <;> simp [hty, hbase]

/-- Remembering a variant makes it known for the type and its base only, whether or not the base was
pending before. -/
theorem learns_remembering {v : TypeId} (hsame : u.types.SameWritable t.types)
    (hmemo : t.memo = u.memo)
    (hpending : ∀ k, k ≠ base → (t.pending.get? k = none ↔ u.pending.get? k = none)) :
    u.Learns base ty (t.remembering base ty v) := by
  refine ⟨hsame, fun k hk => ?_, fun k hu ht => ?_⟩
  · obtain ⟨hp, hb, -, hm⟩ := known?_remembering_eq_none_iff.1 hk
    rw [known?_eq_none_iff, ← hmemo]
    exact ⟨(hpending k hb).1 hp, hm⟩
  · by_contra hne
    rw [not_or] at hne
    rw [known?_eq_none_iff, ← hmemo] at hu
    exact ht (known?_remembering_eq_none_iff.2
      ⟨(hpending k hne.1).2 hu.1, hne.1, hne.2, hu.2⟩)

/-- A map or union that was rebuilt becomes known for good. -/
theorem learns_rebuilt {v : TypeId} (hr : e.ty.isRebuilt) (vs : List TypeId) :
    u.Learns base ty ((u.withVariant e vs).remembering base ty v) :=
  learns_remembering (sameWritable_withVariant hr vs) rfl fun _ _ => Iff.rfl

/-- A draft makes the clone known for its source. -/
theorem Drafts.learns {d : Draft} (h : s.Drafts base e d t) : s.Learns base base t := by
  refine ⟨(Drafting.of_drafts h).same, (Drafting.of_drafts h).knows.known, fun k hs ht => .inl ?_⟩
  by_contra hne
  rw [known?_eq_none_iff] at hs
  refine ht (known?_eq_none_iff.2 ⟨?_, h.memo ▸ hs.2⟩)
  rw [h.pending, OrderedMap.get?_insert, if_neg hne]
  exact hs.1

/-- A clone that was drafted in `s` and is finished in `t` becomes known for good. -/
theorem Drafting.learns {d : Draft} {v : TypeId} (h : s.Drafting base d u)
    (hsame : u.types.SameWritable t.types) (hmemo : t.memo = u.memo)
    (hpending : t.pending = s.pending) : u.Learns base ty (t.remembering base ty v) := by
  refine learns_remembering hsame hmemo fun k hk => ?_
  rw [hpending, h.pending, OrderedMap.get?_insert, if_neg hk]

end Session

variable {cl : Cloner} {s s₁ t u : Session} {ty base v : TypeId} {e : TypeEntry} {d : Draft}
  {ms vs : List TypeId} {C : TypeId → Prop}

/-! ## What is closed -/

/-- A cloner that gives a variant closes the type, and all that it closes below. -/
def Cloner.ClosesAll (cl : Cloner) : Prop :=
  ∀ {s ty v t}, cl.Gives s ty v t → ¬t.Open ty ∧ s.Closes t

/-- Visits close the members, and all that they close below. -/
theorem Cloner.Visits.closes (h : cl.Visits Eq s ms vs t) (hcl : cl.Keeps)
    (hcloses : cl.ClosesAll) :
    (s.Follows t ∧ s.ClosesBut base t) ∧ ∀ m ∈ ms, ¬t.Open m := by
  refine h.forall_members (P := fun t => s.Follows t ∧ s.ClosesBut base t)
    (R := fun m t => ¬t.Open m) ⟨.refl s, (Session.closes_of_knows (.refl s)).but base⟩ ?_ ?_
  · rintro m v t u ⟨hf, hc⟩ hgives
    obtain ⟨hnot, hc'⟩ := hcloses hgives
    have hf' := hcl.gives hgives
    exact ⟨⟨hf.trans hf', hc.closes hf.knows hf'.knows hc'⟩, hnot,
      fun _ hm' => hf'.knows.not_open hm'⟩
  · rintro t _ ht rfl
    exact ⟨ht, fun _ hm' => hm'⟩

/-- So do visits while a clone is filled. Only its base was closed before them. -/
theorem Cloner.Visits.closes_drafting (h : cl.Visits (ChangesOnlyClone d.clone) s₁ ms vs t)
    (hcl : cl.Keeps)
    (hcloses : cl.ClosesAll) (hopens : s.Opens ty base e) (hd : s.Drafts base e d s₁) :
    (s.Drafting base d t ∧ s.ClosesBut base t) ∧ ∀ m ∈ ms, ¬t.Open m := by
  have hs₁ : s.ClosesBut base s₁ := by
    intro x b e' hx hnot
    by_contra hne
    rw [not_or] at hne
    exact hnot ⟨b, e', hd.learns.opens hopens.unfolds.self hx hne.1⟩
  refine h.forall_members (P := fun t => s.Drafting base d t ∧ s.ClosesBut base t)
    (R := fun m t => ¬t.Open m) ⟨.of_drafts hd, hs₁⟩ ?_ ?_
  · rintro m v t u ⟨hdt, hc⟩ hgives
    obtain ⟨hnot, hc'⟩ := hcloses hgives
    have hf' := hcl.gives hgives
    exact ⟨⟨hdt.follows hf', hc.closes hdt.knows hf'.knows hc'⟩, hnot,
      fun _ hm' => hf'.knows.not_open hm'⟩
  · rintro t u ⟨hdt, hc⟩ hw
    obtain ⟨htu, hut⟩ := hdt.knows_changesOnlyClone hd hw
    exact ⟨⟨hdt.changesOnlyClone hd hw, hc.closes hdt.knows htu (Session.closes_of_knows hut)⟩,
      fun _ hm' => htu.not_open hm'⟩

/-- A step that gives a variant closes the type, and all that it closes below. -/
theorem StepsTo.closes (h : StepsTo cl s ty v t) (hcl : cl.Keeps) (hcloses : cl.ClosesAll) :
    ¬t.Open ty ∧ s.Closes t := by
  cases h with
  | atHand hand => exact ⟨hand.not_open, fun x b d hx hnot => absurd ⟨b, d, hx⟩ hnot⟩
  | @rebuilt base e vs u opens rebuilt visits =>
    obtain ⟨⟨hf, hc⟩, hmembers⟩ := visits.closes hcl hcloses
    refine Session.closes_of_members opens hf.knows hc hmembers (Session.learns_rebuilt rebuilt vs)
      fun hnone => ?_
    exact (Session.known?_remembering_eq_none_iff.1 hnone).2.2.1 rfl
  | @cloned base _ e _ opens structured clones =>
    cases clones with
    | @intro d s₁ u vs body definition drafts visits =>
      obtain ⟨⟨hd, hc⟩, hmembers⟩ := visits.closes_drafting hcl hcloses opens drafts
      refine Session.closes_of_members opens hd.knows hc hmembers (hd.learns (.refl _) rfl rfl)
        fun hnone => ?_
      exact (Session.known?_remembering_eq_none_iff.1 hnone).2.2.1 rfl

/-- **A search that gives a variant closes the type, and all that it closes below.** -/
theorem Synth.gives_closes (ctx : Context) (n : Nat) :
    Cloner.ClosesAll (readonlyWithin ctx n) := by
  refine readonlyWithin_induction (C := Cloner.ClosesAll) ctx (fun cl hnone _ => ?_)
    (fun m cl ih hstep _ => ?_) n
  · intro s ty v t h
    exact absurd h hnone
  · intro s ty v t h
    exact (hstep h).closes (readonlyWithin_keeps ctx m) ih

/-! ## What stays open -/

/-- A cloner that gives a variant leaves the types in `C` open if they lead only round among
themselves. -/
def Cloner.LeavesOpen (cl : Cloner) (C : TypeId → Prop) : Prop :=
  ∀ {s ty v t}, cl.Gives s ty v t → s.Traps C → ¬C ty ∧ t.Traps C

/-- No type in `C` has this base, for each of them has a member in `C`. -/
theorem Session.Traps.base_ne_of_members (h : u.Traps C) (hu : u.types.Unfolds base base e)
    (hms : ∀ m ∈ e.ty.members, ¬C m) {x b : TypeId} {d : TypeEntry} (hx : C x)
    (ho : u.Opens x b d) : b ≠ base := by
  rintro rfl
  obtain ⟨b', d', ho', -, m, hm, hCm⟩ := h x hx
  obtain ⟨rfl, rfl⟩ := ho'.unfolds.unique ho.unfolds
  obtain rfl := (ho.unfolds.self.unique hu).2
  exact hms m hm hCm

/-- No type in `C` has a structure for its base. -/
theorem Session.Traps.base_ne_of_structure (h : u.Traps C) (hu : u.types.Unfolds base base e)
    (hs : e.ty.structureKind?.isSome) {x b : TypeId} {d : TypeEntry} (hx : C x)
    (ho : u.Opens x b d) : b ≠ base := by
  rintro rfl
  obtain ⟨b', d', ho', hr, -⟩ := h x hx
  obtain ⟨rfl, rfl⟩ := ho'.unfolds.unique ho.unfolds
  obtain rfl := (ho.unfolds.self.unique hu).2
  simp [Ty.isRebuilt_eq_false hs] at hr

/-- Visits leave the types in `C` open, so no member is one of them. -/
theorem Cloner.Visits.leavesOpen (h : cl.Visits Eq s ms vs t) (hcl : cl.Keeps)
    (hleaves : cl.LeavesOpen C) (hC : s.Traps C) : (s.Follows t ∧ t.Traps C) ∧ ∀ m ∈ ms, ¬C m := by
  refine h.forall_members (P := fun t => s.Follows t ∧ t.Traps C) (R := fun m _ => ¬C m)
    ⟨.refl s, hC⟩ ?_ ?_
  · rintro m v t u ⟨hf, ht⟩ hgives
    obtain ⟨hm, hu⟩ := hleaves hgives ht
    exact ⟨⟨hf.trans (hcl.gives hgives), hu⟩, hm, fun _ hm' => hm'⟩
  · rintro t _ ht rfl
    exact ⟨ht, fun _ hm' => hm'⟩

/-- So do visits while a clone is filled. -/
theorem Cloner.Visits.leavesOpen_drafting (h : cl.Visits (ChangesOnlyClone d.clone) s₁ ms vs t)
    (hcl : cl.Keeps)
    (hleaves : cl.LeavesOpen C) (hopens : s.Opens ty base e) (hs : e.ty.structureKind?.isSome)
    (hd : s.Drafts base e d s₁) (hC : s.Traps C) : s.Drafting base d t ∧ t.Traps C := by
  have hs₁ : s₁.Traps C := hC.learns hd.learns hopens.unfolds.self
    fun x b d hx ho => hC.base_ne_of_structure hopens.unfolds.self hs hx ho
  refine h.invariant (P := fun t => s.Drafting base d t ∧ t.Traps C) ⟨.of_drafts hd, hs₁⟩ ?_ ?_
  · rintro m - v t u ⟨hdt, ht⟩ hgives
    exact ⟨hdt.follows (hcl.gives hgives), (hleaves hgives ht).2⟩
  · rintro t u ⟨hdt, ht⟩ hw
    obtain ⟨-, hut⟩ := hdt.knows_changesOnlyClone hd hw
    refine ⟨hdt.changesOnlyClone hd hw, fun x hx => ?_⟩
    obtain ⟨b, d', ho, hrest⟩ := ht x hx
    exact ⟨b, d', hut.opens ho, hrest⟩

/-- A step that gives a variant leaves the types in `C` open. -/
theorem StepsTo.leavesOpen (h : StepsTo cl s ty v t) (hcl : cl.Keeps) (hleaves : cl.LeavesOpen C)
    (hC : s.Traps C) : ¬C ty ∧ t.Traps C := by
  cases h with
  | atHand hand =>
    refine ⟨fun hty => ?_, hC⟩
    obtain ⟨b, d, ho, -⟩ := hC ty hty
    exact hand.not_open ⟨b, d, ho⟩
  | @rebuilt base e vs u opens rebuilt visits =>
    obtain ⟨⟨hf, hu⟩, hmembers⟩ := visits.leavesOpen hcl hleaves hC
    have hunfolds := hf.same.unfolds_iff.1 opens.unfolds
    have hne : ∀ x b d, C x → u.Opens x b d → b ≠ base :=
      fun x b d hx ho => hu.base_ne_of_members hunfolds.self hmembers hx ho
    refine ⟨fun hty => ?_, hu.learns (Session.learns_rebuilt rebuilt vs) hunfolds hne⟩
    obtain ⟨b, d, ho, -⟩ := hu ty hty
    exact hne ty b d hty ho (ho.unfolds.unique hunfolds).1
  | @cloned base _ e _ opens structured clones =>
    cases clones with
    | @intro d s₁ u vs body definition drafts visits =>
      obtain ⟨hd, hu⟩ := visits.leavesOpen_drafting hcl hleaves opens structured drafts hC
      have hunfolds := hd.same.unfolds_iff.1 opens.unfolds
      refine ⟨fun hty => ?_, hu.learns (hd.learns (.refl _) rfl rfl) hunfolds
        fun x b d hx ho => hu.base_ne_of_structure hunfolds.self structured hx ho⟩
      obtain ⟨b, d, ho, -⟩ := hC ty hty
      exact hC.base_ne_of_structure opens.unfolds.self structured hty ho
        (ho.unfolds.unique opens.unfolds).1

/-- **Types that lead only round among themselves stay open**, and get no variant. -/
theorem Synth.gives_leavesOpen (ctx : Context) (n : Nat) :
    Cloner.LeavesOpen (readonlyWithin ctx n) C := by
  refine readonlyWithin_induction (C := (Cloner.LeavesOpen · C)) ctx (fun cl hnone _ => ?_)
    (fun m cl ih hstep _ => ?_) n
  · intro s ty v t h
    exact absurd h hnone
  · intro s ty v t h hC
    exact (hstep h).leavesOpen (readonlyWithin_keeps ctx m) ih hC

end StructuralTypes
