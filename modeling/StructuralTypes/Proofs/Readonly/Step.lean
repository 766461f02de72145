import StructuralTypes.Proofs.Readonly.Construction

/-!
# One step of the search

`StepsTo cl s ty v t` lists the ways in which one step of the search for the variant of `ty` can end
with `v`, and `StepStops cl s ty x t` the ways in which it can stop, given a cloner `cl` for the
types further down. All that is proved about readonly variants goes by these cases.

Results:
* `Session.Refuses`: a type is refused if it is lost or if there is an obstacle to its cloning.
* `StepStops.of_absent`, `StepStops.of_illegible`, `StepStops.of_base_absent`,
  `StepStops.of_obstacle`: the ways to stop before anything is made.
* **`ends_cloneStep`**: there are no other ways.
* `readonlyWithin_keeps`: the search only adds to the session, and nothing stays pending.
* `stepsTo_of_gives`, `stepStops_of_breaks`: a search of some depth is a step to a search of less.
* **`readonlyWithin_induction`**: what each step passes on, a search of any depth has.
-/

namespace StructuralTypes

/-! ## Refusals -/

/-- What stands in the way of a readonly variant of the type. -/
def Ty.obstacle? : Ty → Option Obstacle
  | placeholder => some .errorDetailPlaceholder
  | ref _ => some .unresolvedReference
  | _ => none

/-- What can be cloned meets no obstacle. -/
theorem Ty.obstacle?_eq_none {ty : Ty} (h : ty.isClonable) : ty.obstacle? = none := by
  cases ty <;> first | rfl | simp [isClonable, structureKind?, isRebuilt] at h

/-- Why no variant is made of a type when none is at hand. -/
inductive Session.Refuses (s : Session) (ty : TypeId) : Stop → Prop
  /-- What it stands for is not there. -/
  | lost {x : Stop} (ends : x ≠ .unending)
      (missing : ∀ base e, s.types.implied ty = .ok base → s.types.find base ≠ .ok e) :
      Refuses s ty x
  /-- What it stands for cannot be cloned. -/
  | unclonable {base : TypeId} {e : TypeEntry} {o : Obstacle}
      (writable : s.types.isReadonly ty = .ok false) (implied : s.types.implied ty = .ok base)
      (found : s.types.find base = .ok e) (base_writable : e.isReadonly = false)
      (obstacle : e.ty.obstacle? = some o) : Refuses s ty (.fault (.notClonable ty o))

theorem Session.Refuses.ne_unending {s : Session} {ty : TypeId} {x : Stop} (h : s.Refuses ty x) :
    x ≠ .unending := by
  cases h with
  | lost ends => exact ends
  | unclonable => simp

/-! ## The ways of one step -/

variable {ctx : Context} {cl : Cloner} {s t : Session} {ty base v : TypeId} {e : TypeEntry}
  {x : Stop}

/-- The session with a variant that was rebuilt, added behind all other types. -/
def Session.withVariant (t : Session) (e : TypeEntry) (vs : List TypeId) : Session :=
  { t with types := (t.types.add { ty := e.ty.rebuild vs, flags := e.flags ∪ .only .readonly }).2 }

/-- The session in which `v` is remembered as the variant of `ty` and of its base. -/
def Session.remembering (t : Session) (base ty v : TypeId) : Session :=
  { t with memo := (t.memo.insert base v).insert ty v }

/-- What is remembered then: the variant for the type and its base, and what was remembered. -/
theorem Session.get?_remembering (t : Session) (base ty v k : TypeId) :
    (t.remembering base ty v).memo.get? k =
      if k = ty then some v else if k = base then some v else t.memo.get? k := by
  unfold remembering
  rw [OrderedMap.get?_insert, OrderedMap.get?_insert]

/-- The ways in which one step can find or make a variant. -/
inductive StepsTo (cl : Cloner) (s : Session) (ty : TypeId) : TypeId → Session → Prop
  /-- The variant is there. -/
  | atHand {v : TypeId} (atHand : s.AtHand ty v) : StepsTo cl s ty v s
  /-- The members are visited, and the base is rebuilt. -/
  | rebuilt {base : TypeId} {e : TypeEntry} {vs : List TypeId} {t : Session}
      (opens : s.Opens ty base e) (rebuilt : e.ty.isRebuilt)
      (visits : cl.Visits Eq s e.ty.members vs t) :
      StepsTo cl s ty ⟨t.types.entries.size⟩
        ((t.withVariant e vs).remembering base ty ⟨t.types.entries.size⟩)
  /-- The base is a structure and is cloned. -/
  | cloned {base v : TypeId} {e : TypeEntry} {t : Session} (opens : s.Opens ty base e)
      (structured : e.ty.structureKind?.isSome) (clones : Clones cl s base e v t) :
      StepsTo cl s ty v (t.remembering base ty v)

/-- The ways in which one step can stop. -/
inductive StepStops (ctx : Context) (cl : Cloner) (s : Session) (ty : TypeId) :
    Stop → Session → Prop
  /-- The type has no variant, or cannot be looked at. -/
  | refused {x : Stop} (refuses : s.Refuses ty x) (closed : ¬s.Open ty)
      (without : ∀ v, ¬s.AtHand ty v) : StepStops ctx cl s ty x s
  /-- The visits to the members are broken off by one of them. -/
  | rebuilding {base m : TypeId} {e : TypeEntry} {pre post vs : List TypeId} {x : Stop}
      {t u : Session} (opens : s.Opens ty base e) (rebuilt : e.ty.isRebuilt)
      (split : e.ty.members = pre ++ m :: post) (before : cl.Visits Eq s pre vs t)
      (breaks : cl.Breaks t m x u) : StepStops ctx cl s ty x u
  /-- The cloning of the base is broken off. -/
  | cloning {base : TypeId} {e : TypeEntry} {x : Stop} {t : Session} (opens : s.Opens ty base e)
      (structured : e.ty.structureKind?.isSome) (abandons : Abandons ctx cl s base e x t) :
      StepStops ctx cl s ty x t

/-! ## Stopping before anything is made -/

/-- What is at hand for a writable type without a variant is so by way of its base. -/
theorem Session.AtHand.by_base (hv : s.AtHand ty v) (hknown : s.known? ty = none)
    (hwritable : s.types.isReadonly ty = .ok false) :
    ∃ b, s.types.implied ty = .ok b ∧ (s.known? b = some v ∨ s.types.isReadonly b = .ok true) := by
  cases hv with
  | known hk => simp [hknown] at hk
  | readonly _ hr => simp [hwritable] at hr
  | @baseKnown b _ _ _ himplied hk => exact ⟨b, himplied, .inl hk⟩
  | @baseReadonly b _ _ himplied _ hr => exact ⟨b, himplied, .inr hr⟩

/-- Nothing is at hand when there is nothing for the base either. -/
theorem Session.not_atHand (hknown : s.known? ty = none)
    (hwritable : s.types.isReadonly ty = .ok false) (himplied : s.types.implied ty = .ok base)
    (hbase : s.known? base = none) (hread : s.types.isReadonly base ≠ .ok true) (v : TypeId) :
    ¬s.AtHand ty v := by
  intro hv
  obtain ⟨b, himplied', hk | hr⟩ := hv.by_base hknown hwritable
  all_goals obtain rfl := Except.ok.inj (himplied.symm.trans himplied')
  · simp [hbase] at hk
  · exact hread hr

namespace StepStops

/-- There is no such type. -/
theorem of_absent (hx : x ≠ .unending) (hknown : s.known? ty = none)
    (habsent : ∀ e, s.types.find ty ≠ .ok e) : StepStops ctx cl s ty x s := by
  have hread := TypeTable.isReadonly_ne_ok habsent
  refine .refused (.lost hx ?_) (fun ⟨_, _, ho⟩ => hread _ ho.unfolds.writable) fun v hv => ?_
  · intro base e himplied hfound
    obtain ⟨e', he'⟩ := TypeTable.exists_find_of_implied himplied hfound
    exact habsent e' he'
  · cases hv with
    | known hk => simp [hknown] at hk
    | readonly _ hr => exact hread _ hr
    | baseKnown _ hw => exact hread _ hw
    | baseReadonly _ hw => exact hread _ hw

/-- What the type stands for cannot be told. -/
theorem of_illegible (hknown : s.known? ty = none) (hwritable : s.types.isReadonly ty = .ok false)
    (hx : s.types.implied ty = .error x) : StepStops ctx cl s ty x s := by
  refine .refused (.lost ?_ ?_) (fun ⟨_, _, ho⟩ => by simp [ho.unfolds.implied] at hx)
    fun v hv => ?_
  · rintro rfl
    exact Synth.impliedWithin_ne_unending _ _ _ hx
  · intro base e himplied
    simp [himplied] at hx
  · obtain ⟨b, himplied, -⟩ := hv.by_base hknown hwritable
    simp [himplied] at hx

/-- There is no such type as it stands for. -/
theorem of_base_absent (hx : x ≠ .unending) (hknown : s.known? ty = none)
    (hwritable : s.types.isReadonly ty = .ok false) (himplied : s.types.implied ty = .ok base)
    (hbase : s.known? base = none) (habsent : ∀ e, s.types.find base ≠ .ok e) :
    StepStops ctx cl s ty x s := by
  have hread := TypeTable.isReadonly_ne_ok habsent
  refine .refused (.lost hx ?_) (fun ⟨_, _, ho⟩ => hread false ?_)
    (Session.not_atHand hknown hwritable himplied hbase (hread true))
  · intro base' e himplied'
    obtain rfl := Except.ok.inj (himplied.symm.trans himplied')
    exact habsent e
  · obtain rfl := Except.ok.inj (himplied.symm.trans ho.unfolds.implied)
    exact ho.unfolds.isReadonly_base

/-- What it stands for meets an obstacle. -/
theorem of_obstacle {o : Obstacle} (hknown : s.known? ty = none)
    (hwritable : s.types.isReadonly ty = .ok false) (himplied : s.types.implied ty = .ok base)
    (hbase : s.known? base = none) (hfound : s.types.find base = .ok e)
    (he : e.isReadonly = false) (hobstacle : e.ty.obstacle? = some o) :
    StepStops ctx cl s ty (.fault (.notClonable ty o)) s := by
  have hread : s.types.isReadonly base = .ok false :=
    TypeTable.isReadonly_eq_ok_iff.2 ⟨e, hfound, he⟩
  refine .refused (.unclonable hwritable himplied hfound he hobstacle) (fun ⟨_, _, ho⟩ => ?_)
    (Session.not_atHand hknown hwritable himplied hbase (by simp [hread]))
  obtain rfl := Except.ok.inj (himplied.symm.trans ho.unfolds.implied)
  obtain rfl := Except.ok.inj (hfound.symm.trans ho.unfolds.found)
  simp [Ty.obstacle?_eq_none ho.unfolds.clonable] at hobstacle

end StepStops

/-! ## What a step does -/

namespace Synth

/-- What is found at hand for `ty` by looking at `base`. -/
theorem ends_variantAtHand? :
    Ends (variantAtHand? ty base) s
      (fun o t => t = s ∧
        (∀ v, o = some v → s.known? base = some v ∨
          s.known? base = none ∧ s.types.isReadonly base = .ok true ∧ v = ty) ∧
        (o = none → s.known? base = none ∧ s.types.isReadonly base = .ok false))
      fun x t => x ≠ .unending ∧ t = s ∧ s.known? base = none ∧
        ∀ e, s.types.find base ≠ .ok e := by
  unfold variantAtHand? knownVariant?
  refine ends_bind.2 (ends_reading.2 ⟨?_, by simp⟩)
  intro o ho
  have hknown : s.known? base = o := Except.ok.inj ho
  cases o with
  | some v =>
    refine ends_pure.2 ⟨rfl, ?_, by simp⟩
    intro v' hv
    exact .inl (hknown.trans hv)
  | none =>
    refine ends_bind.2 (ends_reading.2 ⟨fun b hb => ends_pure.2 ⟨rfl, ?_, ?_⟩, fun x hx => ?_⟩)
    · intro v hv
      cases b with
      | true => exact .inr ⟨hknown, hb, (Option.some.inj hv).symm⟩
      | false => simp at hv
    · intro hv
      cases b with
      | true => simp at hv
      | false => exact ⟨hknown, hb⟩
    · refine ⟨?_, rfl, hknown, fun e he => ?_⟩
      · rintro rfl
        exact isReadonly_ne_unending s.types base hx
      · simp [TypeTable.isReadonly_eq_ok_iff.2 ⟨e, he, rfl⟩] at hx

/-- A call that breaks the visits to the members `ms` off. -/
def BreaksOne (cl : Cloner) (s : Session) (ms : List TypeId) (x : Stop) (u : Session) : Prop :=
  ∃ pre m post vs t, ms = pre ++ m :: post ∧ cl.Visits Eq s pre vs t ∧ cl.Breaks t m x u

/-- Every member is visited, with nothing done in between. -/
theorem ends_mapM_cloner (hcl : cl.Keeps) (stamp : Stamp) (ms : List TypeId) :
    Ends (ms.mapM (cl stamp)) s (fun vs t => cl.Visits Eq s ms vs t ∧ s.Extends t)
      (BreaksOne cl s ms) := by
  refine ends_mapM (I := fun pre vs t => cl.Visits Eq s pre vs t ∧ s.Extends t)
    ⟨.start, .refl s⟩ ?_
  rintro pre vs m post t hms ⟨hvisits, hext⟩
  rw [ends_iff]
  constructor
  · intro v u hv
    have hgives : cl.Gives t m v u := ⟨stamp, hv⟩
    exact ⟨.visit hvisits hgives, hext.trans (hcl.gives hgives).keeps⟩
  · intro x u hx
    exact ⟨pre, m, post, vs, t, hms, hvisits, stamp, hx⟩

theorem ends_addReadonly {E : Stop → Session → Prop} {Q : TypeId → Session → Prop}
    (he : t.types.find base = .ok e) (ty : Ty) :
    Ends (addReadonly base ty) t Q E ↔
      Q ⟨t.types.entries.size⟩
        { t with types := (t.types.add { ty, flags := e.flags ∪ .only .readonly }).2 } := by
  unfold addReadonly
  rw [ends_bind, ends_of_ok (entry_eq he), ends_addType]
  rfl

/-- What is made of the type `base`, which has no variant yet. -/
def Makes (cl : Cloner) (s : Session) (base : TypeId) (e : TypeEntry) (o : Option TypeId)
    (t : Session) : Prop :=
  ∃ v, o = some v ∧ e.ty.isClonable ∧
    ((e.ty.isRebuilt ∧ ∃ vs u, cl.Visits Eq s e.ty.members vs u ∧ v = ⟨u.types.entries.size⟩ ∧
        t = u.withVariant e vs) ∨
      (e.ty.structureKind?.isSome ∧ Clones cl s base e v t))

/-- Why nothing is made of it. -/
def MakesNot (ctx : Context) (cl : Cloner) (s : Session) (ty base : TypeId) (e : TypeEntry)
    (x : Stop) (t : Session) : Prop :=
  (t = s ∧ ∃ o, e.ty.obstacle? = some o ∧ x = .fault (.notClonable ty o)) ∨
    (e.ty.isRebuilt ∧ BreaksOne cl s e.ty.members x t) ∨
    (e.ty.structureKind?.isSome ∧ Abandons ctx cl s base e x t)

/-- What becomes of a type whose variant is not at hand. -/
theorem ends_makeVariant? (hcl : cl.Keeps) (ctx : Context) (stamp : Stamp)
    (hfound : s.types.find base = .ok e) (hwritable : e.isReadonly = false)
    (hknown : s.known? base = none) :
    Ends (makeVariant? ctx cl stamp ty base) s (Makes cl s base e)
      (MakesNot ctx cl s ty base e) := by
  have hpending : base ∉ s.pending.keys := by
    rw [← OrderedMap.get?_eq_none_iff]
    exact (Session.known?_eq_none_iff.1 hknown).1
  -- a clone of a structure
  have hclone : ∀ b : Blueprint, b.Describes e.ty →
      Ends (some <$> makeClone ctx cl stamp base b) s (Makes cl s base e)
        (MakesNot ctx cl s ty base e) := by
    intro b hb
    obtain ⟨-, -, hkind, -, -⟩ := hb.members
    have hs : e.ty.structureKind?.isSome := by simp [hkind]
    refine ends_map.2 ((ends_makeClone hcl ctx stamp hfound hb hpending).imp ?_ ?_)
    · intro v t hv
      exact ⟨v, rfl, by simp [Ty.isClonable, hs], .inr ⟨hs, hv⟩⟩
    · intro x t hx
      exact .inr (.inr ⟨hs, hx⟩)
  -- a copy with other members
  have hcopy : ∀ vs u ty', e.ty.isRebuilt → cl.Visits Eq s e.ty.members vs u → s.Extends u →
      e.ty.rebuild vs = ty' →
      Ends (some <$> addReadonly base ty') u (Makes cl s base e)
        (MakesNot ctx cl s ty base e) := by
    rintro vs u _ hr hvisits hext rfl
    refine ends_map.2 ((ends_addReadonly (hext.find_type hfound) _).2 ?_)
    exact ⟨_, rfl, by simp [Ty.isClonable, hr], .inl ⟨hr, vs, u, hvisits, rfl, rfl⟩⟩
  unfold makeVariant?
  refine ends_bind.2 ((ends_of_ok (entry_eq hfound)).2 ?_)
  obtain ⟨ety, esymbol, eflags⟩ := e
  dsimp only at hclone hcopy ⊢
  unfold TypeEntry.isReadonly at hwritable
  cases ety with
  | placeholder => exact .inl ⟨rfl, _, rfl, rfl⟩
  | ref target => exact .inl ⟨rfl, _, rfl, rfl⟩
  | record r => exact hclone _ (.record r)
  | object fields => exact hclone _ (.object fields)
  | map constraint =>
    refine ends_bind.2 (ends_iff.2 ⟨fun v u hv => ?_, fun x u hx => ?_⟩)
    · have hgives : cl.Gives s constraint v u := ⟨stamp, hv⟩
      exact hcopy [v] u _ rfl (.visit .start hgives) (hcl.gives hgives).keeps rfl
    · exact .inr (.inl ⟨rfl, [], constraint, [], [], s, rfl, .start, stamp, hx⟩)
  | union ms =>
    refine ends_bind.2 ((ends_mapM_cloner hcl stamp ms).imp ?_ ?_)
    · rintro vs u ⟨hvisits, hext⟩
      exact hcopy vs u _ rfl hvisits hext rfl
    · intro x u hx
      exact .inr (.inl ⟨rfl, hx⟩)
  | any => exact hcopy [] s _ rfl .start (.refl s) rfl
  | anydata => exact hcopy [] s _ rfl .start (.refl s) rfl
  | nil | int | float | boolean | string | never | absent | semanticError | error | invokable =>
    simp [Ty.isUnwritable] at hwritable

/-- **One step finds the variant at hand, rebuilds or clones the base, or stops.** -/
theorem ends_cloneStep (hcl : cl.Keeps) (ctx : Context) (stamp : Stamp) (ty : TypeId) :
    Ends (cloneStep ctx cl stamp ty) s (StepsTo cl s ty) (StepStops ctx cl s ty) := by
  unfold cloneStep
  refine ends_bind.2 (ends_variantAtHand?.imp ?_ ?_)
  swap
  · rintro x t ⟨hx, rfl, hknown, hne⟩
    exact .of_absent hx hknown hne
  rintro o t ⟨rfl, hsome, hnone⟩
  cases o with
  | some v =>
    rcases hsome v rfl with hk | ⟨hknown, hr, rfl⟩
    · exact .atHand (.known hk)
    · exact .atHand (.readonly hknown hr)
  | none =>
    obtain ⟨hknown, hwritable⟩ := hnone rfl
    refine ends_bind.2 (ends_reading.2 ⟨fun base himplied => ?_, fun x hx => ?_⟩)
    swap
    · exact .of_illegible hknown hwritable hx
    refine ends_bind.2 (ends_variantAtHand?.imp ?_ ?_)
    swap
    · rintro x u ⟨hx, rfl, hbknown, hne⟩
      exact .of_base_absent hx hknown hwritable himplied hbknown hne
    rintro o u ⟨rfl, hsome, hnone⟩
    cases o with
    | some v =>
      rcases hsome v rfl with hk | ⟨hbknown, hr, rfl⟩
      · exact .atHand (.baseKnown hknown hwritable himplied hk)
      · exact .atHand (.baseReadonly hknown hwritable himplied hbknown hr)
    | none =>
      obtain ⟨hbknown, hbwritable⟩ := hnone rfl
      obtain ⟨e, hfound, he⟩ := TypeTable.isReadonly_eq_ok_iff.1 hbwritable
      have hopens : e.ty.isClonable → u.Opens ty base e := fun hc =>
        ⟨⟨hwritable, himplied, hfound, he, hc⟩, hknown, hbknown⟩
      refine ends_bind.2 ((ends_makeVariant? hcl ctx stamp hfound he hbknown).imp ?_ ?_)
      · rintro _ w ⟨v, rfl, hc, ⟨hr, vs, t, hvisits, rfl, rfl⟩ | ⟨hs, hclones⟩⟩
        · exact StepsTo.rebuilt (hopens hc) hr hvisits
        · exact StepsTo.cloned (hopens hc) hs hclones
      · rintro x w (⟨rfl, o, hobstacle, rfl⟩ | ⟨hr, pre, m, post, vs, t, split, before, breaks⟩ |
          ⟨hs, habandons⟩)
        · exact .of_obstacle hknown hwritable himplied hbknown hfound he hobstacle
        · exact .rebuilding (hopens (by simp [Ty.isClonable, hr])) hr split before breaks
        · exact .cloning (hopens (by simp [Ty.isClonable, hs])) hs habandons

end Synth

/-! ## The whole search -/

/-- Remembering a variant that was not known keeps what was remembered. -/
theorem Session.Extends.remembering (h : s.Extends t) (ho : s.Opens ty base e) (v : TypeId) :
    s.Extends (t.remembering base ty v) := by
  refine ⟨h.symbols, h.scopes, h.types, h.definitions, h.package, fun k w hk => ?_⟩
  have hty := (Session.known?_eq_none_iff.1 ho.unknown).2
  have hbase := (Session.known?_eq_none_iff.1 ho.base_unknown).2
  have hkty : k ≠ ty := fun heq => by simp [heq, hty] at hk
  have hkbase : k ≠ base := fun heq => by simp [heq, hbase] at hk
  rw [get?_remembering, if_neg hkty, if_neg hkbase]
  exact h.memo k w hk

/-- Visits with nothing done in between. -/
theorem Cloner.Visits.follows (hcl : cl.Keeps) {ms vs : List TypeId} (h : cl.Visits Eq s ms vs t) :
    s.Follows t := by
  refine h.invariant (P := fun t => s.Follows t) (.refl s) ?_ ?_
  · intro m _ v t u ht hgives
    exact ht.trans (hcl.gives hgives)
  · rintro t _ ht rfl
    exact ht

/-- How things stand while a clone of `base` is being filled, which was drafted in `s`. -/
structure Session.Drafting (s : Session) (base : TypeId) (d : Draft) (t : Session) : Prop where
  /-- Nothing that was added leads on. -/
  same : s.types.SameWritable t.types
  /-- The clone is there. -/
  body : ∃ body, t.types.find d.clone = .ok (d.entry body) ∧ body.structureKind? = some d.kind
  /-- It is pending. -/
  pending : t.pending = s.pending.insert base d.clone
  /-- What was remembered is remembered. -/
  memo : ∀ k v, s.memo.get? k = some v → t.memo.get? k = some v
  /-- Its symbol is there. -/
  holder : d.holder.index < t.symbols.symbols.size
  /-- Only newer symbols were given definitions. -/
  definitions : s.DefinesFrom (d.holder.index + 1) t

/-- The entry of a clone does not lead on. -/
theorem Session.Drafts.not_leadsOn {d : Draft} {s₁ : Session} (h : s.Drafts base e d s₁) {body : Ty}
    (hk : body.structureKind? = some d.kind) : ¬(d.entry body).LeadsOn := by
  rintro (hr | ⟨target, ht⟩)
  · simp [TypeEntry.isReadonly, Draft.entry, h.flags] at hr
  · rw [show body = .ref target from ht] at hk
    simp [Ty.structureKind?] at hk

namespace Session.Drafting

variable {d : Draft} {s₁ u : Session}

theorem of_drafts (h : s.Drafts base e d s₁) : s.Drafting base d s₁ := by
  obtain ⟨body, hk, htypes⟩ := h.types
  refine ⟨?_, ⟨body, ?_, hk⟩, h.pending, fun k v hv => h.memo ▸ hv, ?_, .of_eq h.package⟩
  · rw [htypes]
    exact .push (h.not_leadsOn hk)
  · rw [htypes, h.clone]
    exact TypeTable.find_add_self s.types (d.entry body)
  · rw [h.holder, h.symbols]
    exact Nat.lt_succ_self _

theorem follows (h : s.Drafting base d t) (hf : t.Follows u) : s.Drafting base d u where
  same := h.same.trans hf.same
  body := h.body.imp fun _ hb => ⟨hf.keeps.find_type hb.1, hb.2⟩
  pending := hf.pending.trans h.pending
  memo k v hk := hf.keeps.memo k v (h.memo k v hk)
  holder := Nat.lt_of_lt_of_le h.holder hf.keeps.symbols.size_le
  definitions := h.definitions.trans hf.definitions h.holder hf.keeps.symbols.size_le

theorem changesOnlyClone (h : s.Drafting base d t) (hd : s.Drafts base e d s₁)
    (hw : ChangesOnlyClone d.clone t u) : s.Drafting base d u := by
  obtain ⟨body, hbody, hk⟩ := h.body
  obtain ⟨body', hk', hbody'⟩ := hw.clone _ hbody
  have hk' : body'.structureKind? = some d.kind := hk'.trans hk
  refine ⟨h.same.trans fun ty e he => ⟨fun hf => ?_, fun hf => ?_⟩, ⟨body', hbody', hk'⟩,
    hw.pending.trans h.pending, fun k v hv => hw.memo ▸ h.memo k v hv,
    Nat.lt_of_lt_of_le h.holder hw.symbols,
    h.definitions.trans (.of_eq hw.package) (Nat.le_refl _) hw.symbols⟩
  · refine hw.kept ty e ?_ hf
    rintro rfl
    obtain rfl := Except.ok.inj (hf.symm.trans hbody)
    exact hd.not_leadsOn hk he
  · by_cases hlt : ty.index < t.types.entries.size
    · obtain ⟨e', he'⟩ := TypeTable.exists_find hlt
      by_cases hty : ty = d.clone
      · subst hty
        obtain rfl := Except.ok.inj (hf.symm.trans hbody')
        exact absurd he (hd.not_leadsOn hk')
      · obtain rfl := Except.ok.inj (hf.symm.trans (hw.kept ty e' hty he'))
        exact he'
    · have hinv := hw.added ty.index e (Nat.le_of_not_lt hlt) (TypeTable.find_eq_ok_iff.1 hf)
      rcases he with hr | ⟨target, ht⟩
      · cases hety : e.ty <;> simp_all [Ty.isInvokable, TypeEntry.isReadonly, Ty.isUnwritable]
      · simp [ht, Ty.isInvokable] at hinv

/-- The clone is drafted, then members are visited and other work is done. -/
theorem of_visits (hcl : cl.Keeps) (hd : s.Drafts base e d s₁) {ms vs : List TypeId}
    (h : cl.Visits (ChangesOnlyClone d.clone) s₁ ms vs t) : s.Drafting base d t := by
  refine h.invariant (P := fun t => s.Drafting base d t) (.of_drafts hd) ?_ ?_
  · intro m _ v t u ht hgives
    exact ht.follows (hcl.gives hgives)
  · intro t u ht hw
    exact ht.changesOnlyClone hd hw

theorem of_stops (hcl : cl.Keeps) (hd : s.Drafts base e d s₁) {ms vs : List TypeId}
    {H : List TypeId → Stop → Session → Prop}
    (h : cl.Stops (ChangesOnlyClone d.clone) H s₁ ms vs x t) :
    s.Drafting base d t := by
  cases h with
  | call _ before breaks => exact (of_visits hcl hd before).follows (hcl.breaks breaks)
  | work _ before _ => exact of_visits hcl hd before

end Session.Drafting

theorem StepsTo.follows (hcl : cl.Keeps) (h : StepsTo cl s ty v t) : s.Follows t := by
  cases h with
  | atHand => exact .refl s
  | @rebuilt base e vs u opens rebuilt visits =>
    obtain ⟨hext, hp, hsame, hdefinitions⟩ := visits.follows hcl
    have hwith : s.Extends (u.withVariant e vs) :=
      { hext with types := StructuralTypes.Grows.trans hext.types (.push _ _) }
    refine ⟨hwith.remembering opens _, hp, hsame.trans (.push ?_), hdefinitions⟩
    rintro (hr | ⟨target, ht⟩)
    · simp [TypeEntry.isReadonly] at hr
    · cases hety : e.ty <;> simp_all [Ty.rebuild, Ty.isRebuilt]
  | cloned opens _ clones =>
    cases clones with
    | @intro d _ _ _ _ definition drafts visits entry filled keeps symbol_eq ty_eq =>
      have hdrafting := Session.Drafting.of_visits hcl drafts visits
      have hholder := drafts.holder_index
      refine ⟨Session.Extends.remembering ?_ opens _, rfl, hdrafting.same, fun f hf => ?_⟩
      · refine ⟨keeps.symbols, keeps.scopes, keeps.types, ?_, ?_, keeps.memo⟩
        · exact keeps.definitions.trans (List.prefix_append _ _)
        · rw [keeps.package]
      · rcases List.mem_append.1 hf with hf | hf
        · rcases hdrafting.definitions f hf with hold | ⟨hle, hlt⟩
          · exact .inl hold
          · refine .inr ⟨?_, hlt⟩
            omega
        · obtain rfl := List.mem_singleton.1 hf
          rw [symbol_eq]
          exact .inr ⟨Nat.le_of_eq hholder.symm, hdrafting.holder⟩

theorem StepStops.follows (hcl : cl.Keeps) (h : StepStops ctx cl s ty x t) : s.Follows t := by
  cases h with
  | refused => exact .refl s
  | rebuilding _ _ _ before breaks => exact (before.follows hcl).trans (hcl.breaks breaks)
  | cloning _ _ abandons =>
    cases abandons with
    | early => exact .refl s
    | @late d _ _ _ _ _ drafts stops entry made keeps =>
      have hdrafting := Session.Drafting.of_stops hcl drafts stops
      have hholder := drafts.holder_index
      refine ⟨⟨keeps.symbols, keeps.scopes, keeps.types, keeps.definitions, keeps.package,
        keeps.memo⟩, rfl, hdrafting.same, fun f hf => ?_⟩
      refine (hdrafting.definitions f hf).imp_right fun ⟨hle, hlt⟩ => ⟨?_, hlt⟩
      omega

namespace Synth

variable {n : Nat}

/-- **The search only adds, leads the same ways, and leaves nothing pending.** -/
theorem readonlyWithin_keeps (ctx : Context) (n : Nat) : (readonlyWithin ctx n).Keeps := by
  induction n with
  | zero =>
    constructor
    · rintro s ty v t ⟨stamp, h⟩
      cases h
    · rintro s ty x t ⟨stamp, h⟩
      cases h
      exact .refl s
  | succ n ih =>
    constructor
    · rintro s ty v t ⟨stamp, h⟩
      exact ((ends_cloneStep ih ctx stamp ty).of_ok h).follows ih
    · rintro s ty x t ⟨stamp, h⟩
      exact ((ends_cloneStep ih ctx stamp ty).of_error h).follows ih

/-- A search that gives a variant is a step to searches of less depth. -/
theorem stepsTo_of_gives (h : Cloner.Gives (readonlyWithin ctx n) s ty v t) :
    ∃ m, n = m + 1 ∧ StepsTo (readonlyWithin ctx m) s ty v t := by
  obtain ⟨stamp, h⟩ := h
  cases n with
  | zero => cases h
  | succ m => exact ⟨m, rfl, (ends_cloneStep (readonlyWithin_keeps ctx m) ctx stamp ty).of_ok h⟩

/-- A search that stops has no depth or is a step to searches of less depth. -/
theorem stepStops_of_breaks (h : Cloner.Breaks (readonlyWithin ctx n) s ty x t) :
    (n = 0 ∧ x = .unending ∧ t = s) ∨
      ∃ m, n = m + 1 ∧ StepStops ctx (readonlyWithin ctx m) s ty x t := by
  obtain ⟨stamp, h⟩ := h
  cases n with
  | zero =>
    cases h
    exact .inl ⟨rfl, rfl, rfl⟩
  | succ m =>
    exact .inr ⟨m, rfl, (ends_cloneStep (readonlyWithin_keeps ctx m) ctx stamp ty).of_error h⟩

/-- **What each step passes on, a search of any depth has.** A search without depth gives nothing
and stops at once; one of more depth is a step to searches of less. -/
theorem readonlyWithin_induction {C : Cloner → Prop} (ctx : Context)
    (zero : ∀ cl : Cloner, (∀ {s ty v t}, ¬cl.Gives s ty v t) →
      (∀ {s ty x t}, cl.Breaks s ty x t → x = .unending ∧ t = s) → C cl)
    (succ : ∀ m (cl : Cloner), C (readonlyWithin ctx m) →
      (∀ {s ty v t}, cl.Gives s ty v t → StepsTo (readonlyWithin ctx m) s ty v t) →
      (∀ {s ty x t}, cl.Breaks s ty x t → StepStops ctx (readonlyWithin ctx m) s ty x t) → C cl)
    (n : Nat) : C (readonlyWithin ctx n) := by
  induction n with
  | zero =>
    refine zero _ (fun {s ty v t} h => ?_) fun {s ty x t} h => ?_
    · obtain ⟨m, hm, -⟩ := stepsTo_of_gives h
      omega
    · rcases stepStops_of_breaks h with ⟨-, hx⟩ | ⟨m, hm, -⟩
      · exact hx
      · omega
  | succ n ih =>
    refine succ n _ ih (fun {s ty v t} h => ?_) fun {s ty x t} h => ?_
    · obtain ⟨m, hm, hstep⟩ := stepsTo_of_gives h
      obtain rfl : n = m := by omega
      exact hstep
    · rcases stepStops_of_breaks h with ⟨h0, -⟩ | ⟨m, hm, hstep⟩
      · omega
      · obtain rfl : n = m := by omega
        exact hstep

end Synth

end StructuralTypes
