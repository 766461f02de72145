import StructuralTypes.Proofs.Readonly.Assembly
import StructuralTypes.Proofs.Readonly.Frame

/-!
# Every clone is registered once

A search for a readonly variant that ends well has registered the definitions of the clones that it
has made, one for each structure that it has remembered a variant for, and nothing else.

Results:
* `Registered.register`, `Registered.remember`: the last steps for a clone.
* **`readonlyWithin_registers`**: what a search registers.
* **`request_registers`**: what a request registers.
-/

namespace StructuralTypes

namespace Registered

variable {suffix : String} {q : PackageId} {s s₁ t u : Session} {made : List Wiring}

/-- A variant is remembered for something else than a structure. -/
theorem remember (h : Registered suffix q s made t) {k v : TypeId} (hk : s.memo.get? k = none)
    (hother : ∃ e, t.types.find k = .ok e ∧ e.ty.structureKind? = none) :
    Registered suffix q s made { t with memo := t.memo.insert k v } := by
  refine { h with memo := fun k' v' hk' => ?_, remembered := fun w hw => ?_, complete := ?_ }
  · have hne : k' ≠ k := by
      rintro rfl
      simp [hk] at hk'
    rw [OrderedMap.get?_insert, if_neg hne]
    exact h.memo k' v' hk'
  · have hne : w.source ≠ k := by
      rintro rfl
      obtain ⟨e, he, hkind⟩ := hother
      obtain ⟨_, -, hstands⟩ := (h.stands w hw).outline
      obtain ⟨x, named, he', -⟩ := hstands.source
      obtain ⟨kind, hsource, -⟩ := hstands.kind
      obtain rfl := Except.ok.inj (he.symm.trans he')
      simp [hsource] at hkind
    rw [OrderedMap.get?_insert, if_neg hne]
    exact h.remembered w hw
  · intro k' v' hk' hnone
    rw [OrderedMap.get?_insert] at hk'
    split at hk' <;> rename_i heq
    · subst heq
      exact .inr hother
    · exact h.complete k' v' hk' hnone

/-- **A clone is registered and remembered.** -/
theorem register {w : Wiring} (hd : w.toOutline.Drafted s s₁) (h : Registered suffix q s₁ made u)
    (hw : w.Stands suffix u.symbols u.types) (hq : w.stamp.package = q)
    (hqualifier : w.qualifier = s.package.qualifierFor none w.named.package)
    (hunknown : s.known? w.source = none) :
    Registered suffix q s (made ++ [w])
      { u with
        pending := u.pending.erase w.source
        package :=
          { u.package with typeDefinitions := u.package.typeDefinitions ++ [w.definition] }
        memo := u.memo.insert w.source w.clone } := by
  obtain ⟨hpending, hmemo⟩ := Session.known?_eq_none_iff.1 hunknown
  -- the source is pending while the other clones are made
  have hother : ∀ w' ∈ made, w'.source ≠ w.source ∧ s.known? w'.source = none := by
    intro w' hw'
    obtain ⟨hp, hm⟩ := Session.known?_eq_none_iff.1 (h.unknown w' hw')
    rw [hd.pending, OrderedMap.get?_insert] at hp
    split at hp <;> rename_i hne
    · cases hp
    · exact ⟨hne, Session.known?_eq_none_iff.2 ⟨hp, hd.memo ▸ hm⟩⟩
  have hsizes := hd.sizes_le
  have hmemo₁ : ∀ k, s₁.memo.get? k = s.memo.get? k := fun k => by rw [hd.memo]
  exact {
    package := by
      rw [h.package, hd.package]
      simp
    pending := by
      show u.pending.erase w.source = s.pending
      rw [h.pending, hd.pending]
      exact OrderedMap.erase_insert_of_not_mem (OrderedMap.get?_eq_none_iff.1 hpending) _
    memo := by
      intro k v hk
      have hne : k ≠ w.source := by
        rintro rfl
        simp [hmemo] at hk
      rw [OrderedMap.get?_insert, if_neg hne]
      exact h.memo k v ((hmemo₁ k).trans hk)
    distinct := by
      rw [List.map_append]
      refine h.distinct.append (by simp) fun k hk hk' => ?_
      obtain ⟨w', hw', rfl⟩ := List.mem_map.1 hk
      exact (hother w' hw').1 (by simpa using hk')
    holders := by
      rw [List.map_append]
      refine h.holders.append (by simp) fun x hx hx' => ?_
      obtain ⟨w', hw', heq⟩ := List.mem_map.1 hx
      have hle := (h.new w' hw').2.1
      rw [heq, List.mem_singleton.1 hx'] at hle
      exact absurd hd.there.2.1 (Nat.not_lt_of_le hle)
    unknown := List.forall_mem_append.2
      ⟨fun w' hw' => (hother w' hw').2, List.forall_mem_singleton.2 hunknown⟩
    remembered := by
      refine List.forall_mem_append.2 ⟨fun w' hw' => ?_, List.forall_mem_singleton.2 ?_⟩
      · rw [OrderedMap.get?_insert, if_neg (hother w' hw').1]
        exact h.remembered w' hw'
      · rw [OrderedMap.get?_insert, if_pos rfl]
    complete := by
      intro k v hk hnone
      rw [OrderedMap.get?_insert] at hk
      rw [List.map_append]
      split at hk <;> rename_i heq
      · exact .inl (List.mem_append_right _ (by simp [heq]))
      · exact (h.complete k v hk ((hmemo₁ k).trans hnone)).imp_left (List.mem_append_left _)
    stands := List.forall_mem_append.2 ⟨h.stands, List.forall_mem_singleton.2 hw⟩
    qualified := by
      refine List.forall_mem_append.2 ⟨fun w' hw' => ?_, List.forall_mem_singleton.2 hqualifier⟩
      rw [h.qualified w' hw', hd.package]
    new := by
      refine List.forall_mem_append.2 ⟨fun w' hw' => ?_, List.forall_mem_singleton.2 ?_⟩
      · obtain ⟨hT, hy, hc⟩ := h.new w' hw'
        exact ⟨Nat.le_trans hsizes.1 hT, Nat.le_trans hsizes.2.1 hy, Nat.le_trans hsizes.2.2 hc⟩
      · rw [hd.clone, hd.holder, hd.scope]
        exact ⟨Nat.le_refl _, Nat.le_refl _, Nat.le_refl _⟩
    sizes := ⟨Nat.le_trans hsizes.1 h.sizes.1, Nat.le_trans hsizes.2.1 h.sizes.2.1,
      Nat.le_trans hsizes.2.2 h.sizes.2.2⟩
    numbered := .snoc hd.counts (hq ▸ hd.number) hq h.numbered }

end Registered

namespace Synth

variable {suffix : String} {q : PackageId} {s : Session} {ty base : TypeId} {e : TypeEntry}
  {cl : Cloner} {ctx : Context} {stamp : Stamp}

/-- The members of a map or union are visited. -/
theorem yields_mapM_cloner (hcl : cl.Registers suffix q) (hq : stamp.package = q)
    (ms : List TypeId) :
    Yields (ms.mapM (cl stamp)) s fun _ t => ∃ made, Registered suffix q s made t := by
  refine ends_mapM (I := fun _ _ t => ∃ made, Registered suffix q s made t) ⟨[], .refl _ _ _⟩ ?_
  rintro pre vs m post t - ⟨made, h⟩
  refine ends_iff.2 ⟨fun v u hv => ?_, fun _ _ _ => trivial⟩
  obtain ⟨made', h'⟩ := hcl.registers hq hv
  exact ⟨_, h.trans h' (hcl.keeps.gives ⟨stamp, hv⟩).keeps⟩

/-- The copy of a type is added. -/
theorem yields_addReadonly {t : Session} {made : List Wiring} (h : Registered suffix q s made t)
    (ty : Ty) : Yields (addReadonly base ty) t fun _ u => ∃ made, Registered suffix q s made u := by
  unfold addReadonly
  refine ends_bind.2 (ends_reading.2 ⟨fun e _ => ends_addType.2 ⟨made, ?_⟩, fun _ _ => trivial⟩)
  have hgrows : t.types.Grows (t.types.add { ty, flags := e.flags ∪ .only .readonly }).2 :=
    StructuralTypes.Grows.push _ _
  have hadded := Registered.refl suffix q t
  refine (List.append_nil made) ▸ h.trans
    { hadded with
      complete := fun k v hk hnone => absurd (hk.symm.trans hnone) (by simp)
      stands := by simp
      sizes := ⟨StructuralTypes.Grows.size_le hgrows, Nat.le_refl _, Nat.le_refl _⟩ } ?_
  exact { Session.Extends.refl t with types := hgrows }

/-- A variant is made: the clone of a structure, or something else. -/
def MadeVariant (suffix : String) (q : PackageId) (s : Session) (base : TypeId) (e : TypeEntry)
    (v : TypeId) (t : Session) : Prop :=
  (e.ty.structureKind? = none ∧ ∃ made, Registered suffix q s made t) ∨
    ∃ made, Registered suffix q s made { t with memo := t.memo.insert base v }

/-- **A variant is made, or none is needed.** -/
theorem yields_makeVariant? (hcl : cl.Registers suffix q)
    (hsuffix : ctx.settings.initializerSuffix = suffix) (hq : stamp.package = q)
    (he : s.types.find base = .ok e) (hwritable : e.flags.contains (.only .readonly) = false)
    (hunknown : s.known? base = none) :
    Yields (makeVariant? ctx cl stamp ty base) s fun o t =>
      (o = none ∧ t = s) ∨ ∃ v, o = some v ∧ MadeVariant suffix q s base e v t := by
  have hclone : ∀ b : Blueprint, b.Describes e.ty →
      Yields (some <$> makeClone ctx cl stamp base b) s fun o t =>
        (o = none ∧ t = s) ∨ ∃ v, o = some v ∧ MadeVariant suffix q s base e v t := by
    intro b hb
    refine ends_map.2 ((yields_makeClone hcl hsuffix hq he hwritable hb).imp ?_ fun _ _ h => h)
    rintro v _ ⟨w, made, s₁, u, rfl, rfl, -, hwq, hdrafted, hregistered, hw, hqualifier, rfl⟩
    exact .inr ⟨_, rfl, .inr ⟨_, hregistered.register hdrafted hw hwq hqualifier hunknown⟩⟩
  have hcopy : ∀ (made : List Wiring) (t : Session) (copy : Ty), Registered suffix q s made t →
      e.ty.structureKind? = none → Yields (some <$> addReadonly base copy) t fun o t =>
        (o = none ∧ t = s) ∨ ∃ v, o = some v ∧ MadeVariant suffix q s base e v t := by
    intro made t copy h hkind
    refine ends_map.2 ((yields_addReadonly h copy).imp ?_ fun _ _ h => h)
    rintro v u hmade
    exact .inr ⟨v, rfl, .inl ⟨hkind, hmade⟩⟩
  unfold makeVariant?
  refine ends_bind.2 ((ends_of_ok (entry_eq he)).2 ?_)
  cases hty : e.ty with
  | placeholder => trivial
  | ref target => trivial
  | record r => exact hclone _ (hty ▸ .record r)
  | object fields => exact hclone _ (hty ▸ .object fields)
  | map constraint =>
    refine ends_bind.2 (Ends.imp (Q := fun _ t => ∃ made, Registered suffix q s made t) ?_ ?_
      fun _ _ h => h)
    · exact ends_iff.2 ⟨fun v t hv => hcl.registers hq hv, fun _ _ _ => trivial⟩
    · rintro v t ⟨made, h⟩
      exact hcopy made t _ h (by simp [hty, Ty.structureKind?])
  | union members =>
    refine ends_bind.2 ((yields_mapM_cloner hcl hq members).imp ?_ fun _ _ h => h)
    rintro vs t ⟨made, h⟩
    exact hcopy made t _ h (by simp [hty, Ty.structureKind?])
  | any => exact hcopy [] s _ (.refl _ _ _) (by simp [hty, Ty.structureKind?])
  | anydata => exact hcopy [] s _ (.refl _ _ _) (by simp [hty, Ty.structureKind?])
  | nil | int | float | boolean | string | never | absent | semanticError | error | invokable =>
    exact ends_pure.2 (.inl ⟨rfl, rfl⟩)

/-- **One step registers the clones that it makes.** -/
theorem cloneStep_registers (hcl : cl.Registers suffix q)
    (hsuffix : ctx.settings.initializerSuffix = suffix) (hq : stamp.package = q) {v : TypeId}
    {t : Session} (hrun : cloneStep ctx cl stamp ty s = .ok v t) :
    ∃ made, Registered suffix q s made t := by
  have hfollows := ((ends_cloneStep hcl.keeps ctx stamp ty).of_ok hrun).follows hcl.keeps
  suffices hyields : Yields (cloneStep ctx cl stamp ty) s fun _ t => s.Follows t →
      ∃ made, Registered suffix q s made t from hyields.of_ok hrun hfollows
  unfold cloneStep
  refine ends_bind.2 (ends_variantAtHand?.imp ?_ fun _ _ _ => trivial)
  rintro o _ ⟨rfl, -, hnone⟩
  cases o with
  | some v => exact ends_pure.2 fun _ => ⟨[], .refl _ _ _⟩
  | none =>
  obtain ⟨hknown, hwritable⟩ := hnone rfl
  obtain ⟨d, hd, -⟩ := TypeTable.isReadonly_eq_ok_iff.1 hwritable
  refine ends_bind.2 (ends_reading.2 ⟨fun base himplied => ?_, fun _ _ => trivial⟩)
  refine ends_bind.2 (ends_variantAtHand?.imp ?_ fun _ _ _ => trivial)
  rintro o u ⟨rfl, -, hnone⟩
  cases o with
  | some v => exact ends_pure.2 fun _ => ⟨[], .refl _ _ _⟩
  | none =>
  obtain ⟨hbknown, hbwritable⟩ := hnone rfl
  obtain ⟨e, he, hreadonly⟩ := TypeTable.isReadonly_eq_ok_iff.1 hbwritable
  have hflags : e.flags.contains (.only .readonly) = false := by
    simp only [TypeEntry.isReadonly, Bool.or_eq_false_iff] at hreadonly
    exact hreadonly.1
  refine ends_bind.2 ((yields_makeVariant? hcl hsuffix hq he hflags hbknown).imp ?_
    fun _ _ h => h)
  rintro o w (⟨rfl, rfl⟩ | ⟨v, rfl, hmade⟩)
  · exact ends_pure.2 fun _ => ⟨[], .refl _ _ _⟩
  -- a variant is remembered for the base and for the type itself
  have hremember : ∀ (k : TypeId) (w : Session),
      remember k v w = .ok () { w with memo := w.memo.insert k v } := fun _ _ => rfl
  refine ends_bind.2 ((ends_of_ok (hremember base w)).2 ?_)
  refine ends_bind.2 ((ends_of_ok (hremember ty _)).2 (ends_pure.2 fun hf => ?_))
  have hbase := hf.keeps.find_type he
  obtain ⟨made, h⟩ : ∃ made,
      Registered suffix q u made { w with memo := w.memo.insert base v } := by
    rcases hmade with ⟨hkind, made, h⟩ | hmade
    · exact ⟨made, h.remember (Session.known?_eq_none_iff.1 hbknown).2 ⟨e, hbase, hkind⟩⟩
    · exact hmade
  refine ⟨made, ?_⟩
  by_cases hne : ty = base
  · subst hne
    have htwice : (w.memo.insert ty v).insert ty v = w.memo.insert ty v :=
      OrderedMap.insert_of_get? (by rw [OrderedMap.get?_insert, if_pos rfl])
    simpa only [htwice] using h
  · -- a type that stands for another one is a reference
    refine h.remember (Session.known?_eq_none_iff.1 hknown).2 ⟨d, hf.keeps.find_type hd, ?_⟩
    have href : ¬∀ target, d.ty ≠ .ref target := fun href =>
      hne (Except.ok.inj ((TypeTable.implied_eq_self hd href).symm.trans himplied))
    obtain ⟨target, htarget⟩ := not_forall_not.1 href
    simp [htarget, Ty.structureKind?]

/-- **A search registers the clones that it makes.** -/
theorem readonlyWithin_registers (hsuffix : ctx.settings.initializerSuffix = suffix) (n : Nat) :
    (readonlyWithin ctx n).Registers suffix q := by
  induction n with
  | zero => exact ⟨readonlyWithin_keeps ctx 0, fun _ h => by cases h⟩
  | succ n ih =>
    exact ⟨readonlyWithin_keeps ctx (n + 1), fun hq h => cloneStep_registers ih hsuffix hq h⟩

end Synth

namespace Compilation

variable {slots : CloneSlots} {r : CloneRequest} {c c' : Compilation} {v : TypeId}

/-- What was made in answer to a request is registered in the package of its environment. -/
theorem registered_of_request (h : request slots r c = .ok v c') : ∃ package t made,
    c.packages[r.environment.package]? = some package ∧
      Registered c.settings.initializerSuffix r.stamp.package (c.session package slots) made t ∧
        c' = c.keep r.environment.package slots t := by
  obtain ⟨package, t, hpackage, hv, rfl⟩ := request_eq_ok h
  obtain ⟨made, hmade⟩ := (Synth.readonlyWithin_registers rfl _).registers rfl hv
  exact ⟨package, t, made, hpackage, hmade, rfl⟩

/-- In answer to a request, the clones `made` were registered. -/
structure Registers (slots : CloneSlots) (r : CloneRequest) (c : Compilation)
    (made : List Wiring) (c' : Compilation) : Prop where
  /-- The package of the environment has got the definitions of the clones, and no package has got
  anything else. Records are referred to by the local names that it imports packages under. -/
  packages : ∃ package, c.packages[r.environment.package]? = some package ∧
    (∀ w ∈ made, w.qualifier = package.qualifierFor none w.named.package) ∧
      c'.packages = c.packages.setIfInBounds r.environment.package
        { package with
          typeDefinitions := package.typeDefinitions ++ made.map (·.definition) }
  /-- No structure was cloned twice. -/
  sources : (made.map (·.source)).Nodup
  /-- Each clone has its own symbol. -/
  holders : (made.map (·.holder)).Nodup
  /-- Those structures were cloned that a variant is remembered for and was not before. -/
  cached : ∀ ty, ty ∈ made.map (·.source) ↔
    (∃ e, c'.types.find ty = .ok e ∧ e.ty.structureKind?.isSome) ∧
      (c.memo slots.memo).get? ty = none ∧ ((c'.memo slots.memo).get? ty).isSome
  /-- The variant is the clone. -/
  remembered : ∀ w ∈ made, (c'.memo slots.memo).get? w.source = some w.clone
  /-- All that belongs to the clones is there. -/
  stands : ∀ w ∈ made, w.Stands c.settings.initializerSuffix c'.symbols c'.types
  /-- The names that were made up are new. -/
  numbered : Numbered r.stamp.package c.names made c'.names

/-- **Each structure that a request enters into the cache has got a clone with all that belongs to
it, and its definition was registered.** Nothing else was. -/
theorem request_registers (c c' : Compilation) (slots : CloneSlots) (r : CloneRequest) (v : TypeId)
    (h : request slots r c = .ok v c') : ∃ made, Registers slots r c made c' := by
  obtain ⟨package, t, made, hpackage, hmade, rfl⟩ := registered_of_request h
  have hmemo : (c.keep r.environment.package slots t).memo slots.memo = t.memo := by
    rw [memo_keep, if_pos rfl]
  refine ⟨made,
    { packages := ⟨package, hpackage, hmade.qualified, ?_⟩
      sources := hmade.distinct
      holders := hmade.holders
      cached := fun ty => ?_
      remembered := fun w hw => ?_
      stands := hmade.stands
      numbered := hmade.numbered }⟩
  · show c.packages.setIfInBounds r.environment.package t.package = _
    rw [hmade.package]
    rfl
  · rw [hmemo]
    constructor
    · intro hty
      obtain ⟨w, hw, rfl⟩ := List.mem_map.1 hty
      obtain ⟨_, -, hstands⟩ := (hmade.stands w hw).outline
      obtain ⟨x, named, he, -⟩ := hstands.source
      obtain ⟨kind, hkind, -⟩ := hstands.kind
      refine ⟨⟨_, he, by simp [hkind]⟩, ?_, by simp [hmade.remembered w hw]⟩
      exact (Session.known?_eq_none_iff.1 (hmade.unknown w hw)).2
    · rintro ⟨⟨e, he, hkind⟩, hnone, hsome⟩
      obtain ⟨v', hv'⟩ := Option.isSome_iff_exists.1 hsome
      rcases hmade.complete ty v' hv' hnone with hty | ⟨e', he', hother⟩
      · exact hty
      · obtain rfl := Except.ok.inj (he'.symm.trans he)
        simp [hother] at hkind
  · rw [hmemo]
    exact hmade.remembered w hw

/-- So it is when a record is cloned that has a field for a union with itself. -/
theorem linked_registers : ∃ c', request {} (appRequest ⟨14⟩) linked = .ok ⟨16⟩ c' ∧
    ∃ made, Registers {} (appRequest ⟨14⟩) linked made c' := by
  have hrun : answers? (request {} (appRequest ⟨14⟩) linked) = some ⟨16⟩ := by decide +kernel
  obtain ⟨c', hc'⟩ := answers?_eq_some hrun
  exact ⟨c', hc', request_registers linked c' {} _ _ hc'⟩

end Compilation

end StructuralTypes
