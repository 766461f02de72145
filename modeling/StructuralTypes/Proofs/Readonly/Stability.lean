import StructuralTypes.Proofs.Readonly.Closure
import StructuralTypes.Proofs.Readonly.Frame

/-!
# Asking again

A search looks at what is known and at what is readonly before it makes anything, first for the type
and then for what the type stands for. Once it has given a variant, the variant is at hand; and it
stays at hand whatever is requested later, since nothing becomes known but what was open, and what
is at hand is not open. So who asks again gets the same answer, and nothing changes.

Results:
* `Synth.leads_learnsOpen`: a search makes nothing known but what was open.
* `Synth.atHand_of_gives`: what a search has given is at hand.
* `Session.AtHand.persists`, `Traced.atHand_after`: what is at hand stays at hand.
* `Traced.atHand_of_structure`: the clone of a structure is at hand for all that stands for it.
* **`asked_again`**: a request that was answered is answered alike from then on, for the type, for
  its variant, and for all that stands for the same structure.
-/

namespace StructuralTypes

namespace Session

variable {s t u : Session} {ty base v : TypeId} {e : TypeEntry}

/-! ## What becomes known -/

/-- All that `t` knows and `s` does not was open in `s`. -/
def LearnsOpen (s t : Session) : Prop := ∀ k, s.known? k = none → t.known? k ≠ none → s.Open k

theorem LearnsOpen.of_knows (h : s.LearnsOpen t) (hut : u.Knows t) : s.LearnsOpen u :=
  fun k hs hu => h k hs fun ht => hu (hut.known k ht)

theorem LearnsOpen.refl (s : Session) : s.LearnsOpen s := fun _ hs ht => absurd hs ht

theorem LearnsOpen.trans (h : s.LearnsOpen t) (hk : s.Knows t) (h' : t.LearnsOpen u) :
    s.LearnsOpen u := by
  intro k hs hu
  by_cases ht : t.known? k = none
  · obtain ⟨base, e, ho⟩ := h' k ht hu
    exact ⟨base, e, hk.opens ho⟩
  · exact h k hs ht

/-- When a type and its base become known, both were open. -/
theorem LearnsOpen.learns (h : s.LearnsOpen u) (ho : s.Opens ty base e)
    (hl : u.Learns base ty t) : s.LearnsOpen t := by
  intro k hs ht
  by_cases hu : u.known? k = none
  · rcases hl.only k hu ht with rfl | rfl
    · exact ⟨k, e, ho.self⟩
    · exact ⟨base, e, ho⟩
  · exact h k hs hu

/-- Once a draft is given up, no more is known than with it. -/
theorem Drafting.abandoned_knows {d : Draft} (h : s.Drafting base d t) :
    Knows { t with pending := s.pending } t := by
  refine ⟨.refl _, fun k hk => ?_⟩
  rw [known?_eq_none_iff, h.pending, OrderedMap.get?_insert] at hk
  obtain ⟨hp, hm⟩ := hk
  split at hp
  · simp at hp
  · exact known?_eq_none_iff.2 ⟨hp, hm⟩

end Session

/-- A cloner makes nothing known but what was open. -/
def Cloner.LearnsOpen (cl : Cloner) : Prop := ∀ {s ty t}, cl.Leads s ty t → s.LearnsOpen t

section Learning

variable {cl : Cloner} {s s₁ t : Session} {ty base v : TypeId} {e : TypeEntry} {d : Draft}
  {ms vs : List TypeId} {x : Stop} (hcl : cl.Keeps) (hlearns : cl.LearnsOpen)

include hcl hlearns

/-- Visits make nothing known but what was open. -/
theorem Cloner.Visits.learnsOpen (h : cl.Visits Eq s ms vs t) : s.LearnsOpen t := by
  refine (h.invariant (P := fun t => s.Follows t ∧ s.LearnsOpen t)
    ⟨.refl s, .refl s⟩ ?_ ?_).2
  · rintro m - v t u ⟨hf, ht⟩ hgives
    exact ⟨hf.trans (hcl.gives hgives), ht.trans hf.knows (hlearns (.inl ⟨v, hgives⟩))⟩
  · rintro t _ ht rfl
    exact ht

/-- Nor do visits while a clone is filled; its base was open. -/
theorem Cloner.Visits.learnsOpen_drafting (h : cl.Visits (ChangesOnlyClone d.clone) s₁ ms vs t)
    (ho : s.Opens ty base e) (hd : s.Drafts base e d s₁) : s.LearnsOpen t := by
  refine (h.invariant (P := fun t => s.Drafting base d t ∧ s.LearnsOpen t)
    ⟨.of_drafts hd, (Session.LearnsOpen.refl s).learns ho.self hd.learns⟩ ?_ ?_).2
  · rintro m - v t u ⟨hdt, ht⟩ hgives
    exact ⟨hdt.follows (hcl.gives hgives), ht.trans hdt.knows (hlearns (.inl ⟨v, hgives⟩))⟩
  · rintro t u ⟨hdt, ht⟩ hw
    exact ⟨hdt.changesOnlyClone hd hw, ht.of_knows (hdt.knows_changesOnlyClone hd hw).2⟩

theorem StepsTo.learnsOpen (h : StepsTo cl s ty v t) : s.LearnsOpen t := by
  cases h with
  | atHand => exact .refl s
  | @rebuilt base e vs u opens rebuilt visits =>
    exact (visits.learnsOpen hcl hlearns).learns opens (Session.learns_rebuilt rebuilt vs)
  | @cloned base _ e _ opens structured clones =>
    cases clones with
    | @intro d s₁ u vs body definition drafts visits =>
      have hd := Session.Drafting.of_visits hcl drafts visits
      exact (visits.learnsOpen_drafting hcl hlearns opens drafts).learns opens
        (hd.learns (.refl _) rfl rfl)

theorem StepStops.learnsOpen (h : StepStops ctx cl s ty x t) : s.LearnsOpen t := by
  cases h with
  | refused => exact .refl s
  | rebuilding _ _ _ before breaks =>
    exact (before.learnsOpen hcl hlearns).trans (before.follows hcl).knows
      (hlearns (.inr ⟨_, breaks⟩))
  | cloning opens _ abandons =>
    cases abandons with
    | early => exact .refl s
    | @late d s₁ u _ _ _ drafts stops =>
      refine Session.LearnsOpen.of_knows ?_
        (Session.Drafting.of_stops hcl drafts stops).abandoned_knows
      cases stops with
      | call split before breaks =>
        have hd := Session.Drafting.of_visits hcl drafts before
        exact (before.learnsOpen_drafting hcl hlearns opens drafts).trans hd.knows
          (hlearns (.inr ⟨_, breaks⟩))
      | work part before => exact before.learnsOpen_drafting hcl hlearns opens drafts

end Learning

namespace Synth

variable {s t : Session} {ty v : TypeId} {ctx : Context} {n : Nat}

/-- **A search makes nothing known but what was open**, however it ends. -/
theorem leads_learnsOpen (ctx : Context) (n : Nat) : Cloner.LearnsOpen (readonlyWithin ctx n) := by
  refine readonlyWithin_induction (C := Cloner.LearnsOpen) ctx (fun cl hnone hstop => ?_)
    (fun m cl ih hgives hbreaks => ?_) n
  · rintro s ty t (⟨v, h⟩ | ⟨x, h⟩)
    · exact absurd h hnone
    · obtain ⟨-, rfl⟩ := hstop h
      exact .refl t
  · have hcl := readonlyWithin_keeps ctx m
    rintro s ty t (⟨v, h⟩ | ⟨x, h⟩)
    · exact (hgives h).learnsOpen hcl ih
    · exact (hbreaks h).learnsOpen hcl ih

/-- **What a search has given is at hand.** -/
theorem atHand_of_gives (h : Cloner.Gives (readonlyWithin ctx n) s ty v t) : t.AtHand ty v := by
  obtain ⟨m, -, hstep⟩ := stepsTo_of_gives h
  have hf := hstep.follows (readonlyWithin_keeps ctx m)
  have hpending : ∀ {base e}, s.Opens ty base e → t.pending.get? ty = none := fun ho => by
    rw [hf.pending]
    exact (Session.known?_eq_none_iff.1 ho.unknown).1
  cases hstep with
  | atHand hand => exact hand
  | rebuilt opens =>
    refine .known (Session.known?_eq_some_iff.2 (.inr ⟨hpending opens, ?_⟩))
    rw [Session.get?_remembering, if_pos rfl]
  | cloned opens =>
    refine .known (Session.known?_eq_some_iff.2 (.inr ⟨hpending opens, ?_⟩))
    rw [Session.get?_remembering, if_pos rfl]

end Synth

/-! ## What stays at hand -/

/-- **What is at hand stays at hand**: neither is it open, nor is the base, if that is readonly. -/
theorem Session.AtHand.persists {s t : Session} {ty v : TypeId} (h : s.AtHand ty v)
    (hf : s.Follows t) (hl : s.LearnsOpen t) (hplain : s.types.PlainReferences)
    (hknown : ∀ k w, s.known? k = some w → ∃ b e, s.types.Unfolds k b e) : t.AtHand ty v := by
  have hclosed : ∀ k, s.known? k = none → ¬s.Open k → t.known? k = none := fun k hn ho => by
    by_contra ht
    exact ho (hl k hn ht)
  have hg := hf.keeps.types
  cases h with
  | known hk => exact .known (hf.known hk)
  | readonly hn hr =>
    have ho : ¬s.Open ty := (AtHand.readonly hn hr).not_open
    exact .readonly (hclosed ty hn ho) (hg.isReadonly hr)
  | @baseKnown base _ hn hw himplied hk =>
    have ho : ¬s.Open ty := (AtHand.baseKnown hn hw himplied hk).not_open
    -- the base, whose variant is known, stands for itself
    obtain ⟨b, e, hb⟩ := hknown base v hk
    have hu := TypeTable.Unfolds.of_implied hw himplied hb
    obtain rfl := Except.ok.inj (himplied.symm.trans hu.implied)
    have hu' := hf.same.unfolds_iff.1 hu
    exact .baseKnown (hclosed ty hn ho) hu'.writable hu'.implied (hf.known hk)
  | @baseReadonly base hn hw himplied hbn hr =>
    have ho : ¬s.Open ty := (AtHand.baseReadonly hn hw himplied hbn hr).not_open
    have hob : ¬s.Open base := (AtHand.readonly hbn hr).not_open
    obtain ⟨e, he, her⟩ := TypeTable.isReadonly_eq_ok_iff.1 hr
    have hne := hplain.ne_ref he her
    obtain ⟨n, hn'⟩ := (TypeTable.implied_eq_ok_iff_resolves he hne).1 himplied
    have himplied' := (TypeTable.implied_eq_ok_iff_resolves (hg.find he) hne).2 ⟨n, hn'.grows hg⟩
    exact .baseReadonly (hclosed ty hn ho) (hg.isReadonly hw) himplied' (hclosed base hbn hob)
      (hg.isReadonly hr)

namespace Compilation

variable {slots : CloneSlots} {c c' : Compilation} {r : CloneRequest} {rs : List CloneRequest}
  {T : TypeTable} {Abandoned Unfinished : TypeId → Prop} {P : TypeId → TypeId → Prop}
  {ty ty' base v : TypeId} {e : TypeEntry} {package : Package}

/-! ## In a compilation -/

/-- Outside all packages, a request follows what was there, and makes nothing known but what was
open. -/
theorem attempt_bare (slots : CloneSlots) (c : Compilation) (r : CloneRequest) :
    (c.bare slots).Follows ((attempt slots c r).bare slots) ∧
      (c.bare slots).LearnsOpen ((attempt slots c r).bare slots) := by
  rcases attempt_eq slots c r with h | ⟨ctx, n, package, t, hpackage, hleads, h⟩
  · rw [h]
    exact ⟨.refl _, .refl _⟩
  · have hf := (Synth.readonlyWithin_keeps ctx n).leads hleads
    have hl := Synth.leads_learnsOpen ctx n hleads
    have hbare : (attempt slots c r).bare slots = { t with package := (c.bare slots).package } := by
      rw [h]
      exact session_keep c r.environment.package slots t _
    rw [hbare]
    refine ⟨⟨⟨hf.keeps.symbols, hf.keeps.scopes, hf.keeps.types, List.prefix_rfl, rfl,
      hf.keeps.memo⟩, hf.pending, hf.same, .of_eq rfl⟩, fun k hk ht => ?_⟩
    obtain ⟨base, e, ho⟩ := hl k hk ht
    exact ⟨base, e, ho.unfolds, ho.unknown, ho.base_unknown⟩

/-- Requests, answered or not, lead to what is known. -/
theorem Traced.after (hT : T.Closed) (h : Traced slots T Abandoned Unfinished P c)
    (rs : List CloneRequest) :
    ∃ Unfinished' P',
      Traced slots T Abandoned Unfinished' P' (Compilation.attempts slots rs c) := by
  induction rs using List.reverseRecOn with
  | nil => exact ⟨Unfinished, P, h⟩
  | append_singleton rs r ih =>
    obtain ⟨Unfinished₁, P₁, h₁⟩ := ih
    rw [attempts_append_singleton]
    unfold attempt
    cases hr : request slots r (Compilation.attempts slots rs c) with
    | ok v c' =>
      obtain ⟨P', -, h', -⟩ := h₁.ok hT hr
      exact ⟨Unfinished₁, P', h'⟩
    | error x c' =>
      obtain ⟨Unfinished', P', h', -⟩ := h₁.error hT hr
      exact ⟨Unfinished', P', h'⟩

/-- **What is at hand stays at hand**, whatever is requested. -/
theorem Traced.atHand_after (hT : T.Closed) (hplain : T.PlainReferences)
    (h : Traced slots T Abandoned Unfinished P c) (hv : (c.bare slots).AtHand ty v)
    (rs : List CloneRequest) :
    ((Compilation.attempts slots rs c).bare slots).AtHand ty v := by
  induction rs using List.reverseRecOn with
  | nil => exact hv
  | append_singleton rs r ih =>
    obtain ⟨Unfinished₁, P₁, h₁⟩ := h.after hT rs
    rw [attempts_append_singleton]
    obtain ⟨hf, hl⟩ := attempt_bare slots (Compilation.attempts slots rs c) r
    refine ih.persists hf hl (hplain.of_same h₁.clones.same) fun k w hk => ?_
    obtain ⟨b, e, hu, -⟩ := h₁.clones.known hk
    exact ⟨b, e, h₁.clones.same.unfolds_iff.1 hu⟩

/-- A clone is its own variant. -/
theorem Traced.atHand_clone (h : Traced slots T Abandoned Unfinished P c) (hP : P base v) :
    (c.bare slots).AtHand v v := by
  obtain ⟨hle, e, he⟩ := h.clones.source hP
  obtain ⟨e', he', hflags, -⟩ := h.clones.clone hP he
  have hr : e'.isReadonly := by simp [TypeEntry.isReadonly, hflags]
  refine .readonly ?_ (TypeTable.isReadonly_eq_ok_iff.2 ⟨e', he', hr⟩)
  by_contra hk
  obtain ⟨w, hw⟩ := Option.ne_none_iff_exists'.1 hk
  -- what is remembered is remembered for old types
  obtain ⟨b, d, hu, -⟩ := h.clones.known hw
  obtain ⟨d', hd', -⟩ := TypeTable.isReadonly_eq_ok_iff.1 hu.writable
  exact absurd (TypeTable.lt_of_find hd') (Nat.not_lt_of_le hle)

/-- The clone of a structure that is at hand for a type is remembered for the structure. -/
theorem Traced.remembered_of_atHand (h : Traced slots T Abandoned Unfinished P c)
    (hv : (c.bare slots).AtHand ty v) (hne : v ≠ ty) (himplied : c.types.implied ty = .ok base)
    (he : c.types.find base = .ok e) (hs : e.ty.structureKind?.isSome) :
    T.Unfolds base base e ∧ ¬T.Recurs base ∧ (c.memo slots.memo).get? base = some v := by
  have hknown : ∃ k, (c.memo slots.memo).get? k = some v ∧ c.types.implied k = .ok base := by
    cases hv with
    | known hk => exact ⟨ty, (h.known?_eq ty).symm.trans hk, himplied⟩
    | readonly | baseReadonly => exact absurd rfl hne
    | baseKnown _ _ himplied' hk =>
      obtain rfl := Except.ok.inj (himplied'.symm.trans himplied)
      refine ⟨_, (h.known?_eq _).symm.trans hk, TypeTable.implied_eq_self he ?_⟩
      intro target ht
      simp [ht, Ty.structureKind?] at hs
  obtain ⟨k, hk, hbase⟩ := hknown
  obtain ⟨hunfinished, b, d, hu, hP⟩ := h.clones.memo hk
  have huc := h.clones.same.unfolds_iff.1 hu
  obtain rfl := Except.ok.inj (hbase.symm.trans huc.implied)
  obtain rfl := Except.ok.inj (he.symm.trans huc.found)
  have hrecurs : ¬T.Recurs base := by
    rintro ⟨d', hd', hr, -⟩
    obtain rfl := (hd'.unique hu.self).2
    simp [Ty.isRebuilt_eq_false hs] at hr
  obtain ⟨e', he', -⟩ := h.clones.clone hP hu.self
  exact ⟨hu.self, hrecurs, (h.clones.finished hP hunfinished hu.self he').sole hrecurs⟩

/-- A clone of a structure that is at hand for one type is so from then on for all types that stand
for the structure. -/
theorem Traced.atHand_of_structure (hT : T.Closed) (hplain : T.PlainReferences)
    (h : Traced slots T Abandoned Unfinished P c) (hv : (c.bare slots).AtHand ty v) (hne : v ≠ ty)
    (himplied : c.types.implied ty = .ok base) (he : c.types.find base = .ok e)
    (hs : e.ty.structureKind?.isSome) (rs : List CloneRequest)
    (himplied' : (Compilation.attempts slots rs c).types.implied ty' = .ok base) :
    ((Compilation.attempts slots rs c).bare slots).AtHand ty' v := by
  obtain ⟨hu, hrecurs, hremembered⟩ := h.remembered_of_atHand hv hne himplied he hs
  obtain ⟨Unfinished', P', h'⟩ := h.after hT rs
  have hu' := h'.clones.same.unfolds_iff.1 hu
  have hty' := (hplain.of_same h'.clones.same).unfolds himplied' hu'
  exact h'.atHand_of_unfolds (h'.clones.same.unfolds_iff.2 hty')
    (((Extends.refl c).attempts slots rs).memo _ _ _ hremembered) hrecurs

/-! ## The same request again -/

/-- The slots have been used. -/
def Uses (c : Compilation) (slots : CloneSlots) : Prop :=
  (c.memos.get? slots.memo).isSome ∧ (c.pendings.get? slots.pending).isSome

theorem uses_keep (c : Compilation) (i : Nat) (slots : CloneSlots) (t : Session) :
    (c.keep i slots t).Uses slots := by
  unfold Uses keep
  rw [OrderedMap.get?_insert, OrderedMap.get?_insert, if_pos rfl, if_pos rfl]
  exact ⟨rfl, rfl⟩

theorem Uses.after (h : c.Uses slots) (rs : List CloneRequest) :
    (attempts slots rs c).Uses slots := by
  induction rs using List.reverseRecOn with
  | nil => exact h
  | append_singleton rs r ih =>
    rw [attempts_append_singleton]
    rcases attempt_eq slots (attempts slots rs c) r with heq | ⟨-, -, -, t, -, -, heq⟩
    · rw [heq]
      exact ih
    · rw [heq]
      exact uses_keep _ _ slots t

/-- Keeping a session in which nothing was done changes nothing. -/
theorem keep_session (h : c.Uses slots) {i : Nat} (hi : c.packages[i]? = some package) :
    c.keep i slots (c.session package slots) = c := by
  obtain ⟨hm, hp⟩ := h
  obtain ⟨m, hm⟩ := Option.isSome_iff_exists.1 hm
  obtain ⟨p, hp⟩ := Option.isSome_iff_exists.1 hp
  have hmemo : c.memos.insert slots.memo (c.memo slots.memo) = c.memos := by
    rw [memo, hm]
    exact OrderedMap.insert_of_get? hm
  have hpending : c.pendings.insert slots.pending (c.pending slots.pending) = c.pendings := by
    rw [pending, hp]
    exact OrderedMap.insert_of_get? hp
  have hpackages : c.packages.setIfInBounds i package = c.packages := by
    obtain ⟨hlt, rfl⟩ := Array.getElem?_eq_some_iff.1 hi
    apply Array.ext'
    rw [Array.toList_setIfInBounds]
    exact List.set_getElem_self hlt
  unfold keep keepTables session
  dsimp only
  rw [hmemo, hpending, hpackages]

/-- What a request has answered is at hand, and the slots have been used. -/
theorem atHand_of_request (hr : request slots r c = .ok v c') :
    (c'.bare slots).AtHand r.ty v ∧ c'.Uses slots := by
  obtain ⟨package, t, -, hv, rfl⟩ := request_eq_ok hr
  refine ⟨?_, uses_keep _ _ slots t⟩
  unfold bare
  rw [session_keep]
  exact (Synth.atHand_of_gives ⟨r.stamp, hv⟩).of_package _

/-- What is at hand is the answer to a request, which changes nothing. -/
theorem request_of_atHand (h : c.Uses slots) (hv : (c.bare slots).AtHand r.ty v)
    (hpackage : r.environment.package < c.packages.size) : request slots r c = .ok v c := by
  have hi := Array.getElem?_eq_getElem hpackage
  unfold request readonlyVariant synthesize
  rw [hi]
  dsimp only
  rw [finds_of_atHand hv]
  dsimp only
  rw [keep_session h hi]

/-- **Once a request for a type was answered, the answer stays the same**: whatever is requested in
between, another request for the type, or for its variant, gives that variant and changes nothing.
If the type stands for a structure and is not its own variant, so does a request for any type that
stands for this structure. No clone is known at the beginning. -/
theorem asked_again (c c' : Compilation) (slots : CloneSlots) (rs : List CloneRequest)
    (r : CloneRequest) (v : TypeId) (hc : c.InRange) (hmemo : c.memo slots.memo = ∅)
    (hpending : c.pending slots.pending = ∅) (hplain : c.types.PlainReferences)
    (hr : request slots r (attempts slots rs c) = .ok v c') (later : List CloneRequest)
    (again : CloneRequest) (hpackage : again.environment.package < c.packages.size)
    (hsame : again.ty = r.ty ∨ again.ty = v ∨ v ≠ r.ty ∧ ∃ base e,
      c'.types.implied r.ty = .ok base ∧ c'.types.find base = .ok e ∧
        e.ty.structureKind?.isSome ∧
          (attempts slots later c').types.implied again.ty = .ok base) :
    request slots again (attempts slots later c') = .ok v (attempts slots later c') := by
  obtain ⟨Unfinished₁, P₁, h₁⟩ := (Traced.start hc hmemo hpending).after hc.types rs
  obtain ⟨P, -, h, hreplaces, -⟩ := h₁.ok hc.types hr
  obtain ⟨hhand, huses⟩ := atHand_of_request hr
  have hext : c.Extends (attempts slots later c') :=
    (((Extends.refl c).attempts slots rs).trans (extends_of_request_eq_ok hr)).attempts slots later
  refine request_of_atHand (huses.after later) ?_ (hext.packages ▸ hpackage)
  rcases hsame with hty | hty | ⟨hne, base, e, himplied, he, hs, hagain⟩
  · rw [hty]
    exact h.atHand_after hc.types hplain hhand later
  · rw [hty]
    refine h.atHand_after hc.types hplain ?_ later
    rcases hreplaces with ⟨rfl, -⟩ | ⟨base, e, -, hP⟩
    · exact hhand
    · exact h.atHand_clone hP
  · exact h.atHand_of_structure hc.types hplain hhand hne himplied he hs later hagain

/-- The records of `broken`, and a reference to the inner one. -/
def referenced : Compilation :=
  app [("A", ⟨14⟩), ("B", ⟨15⟩)]
    [appRecord ⟨1⟩ [("b", ⟨15⟩), ("bad", Builtin.errorDetail)], appRecord ⟨2⟩ [("a", ⟨14⟩)],
      { ty := .ref ⟨15⟩ }]

/-- The inner record has its variant however often the outer one fails; the reference and the
variant itself have it too. -/
theorem referenced_asked_again :
    ∃ c', request {} (appRequest ⟨15⟩) (attempts {} [appRequest ⟨14⟩] referenced) = .ok ⟨18⟩ c' ∧
      ∀ ty ∈ [(⟨15⟩ : TypeId), ⟨18⟩, ⟨16⟩],
        request {} (appRequest ty) (attempts {} [appRequest ⟨14⟩] c') =
          .ok ⟨18⟩ (attempts {} [appRequest ⟨14⟩] c') := by
  have hrun : EndsWell (fun v c => v = ⟨18⟩ ∧ c.types.implied ⟨15⟩ = .ok ⟨15⟩ ∧
      c.types.find ⟨15⟩ = .ok (appRecord ⟨2⟩ [("a", ⟨14⟩)]) ∧
        (attempts {} [appRequest ⟨14⟩] c).types.implied ⟨16⟩ = .ok ⟨15⟩)
      (request {} (appRequest ⟨15⟩) (attempts {} [appRequest ⟨14⟩] referenced)) := by
    decide +kernel
  obtain ⟨_, c', hc', rfl, himplied, hfound, hreference⟩ := hrun
  have again : ∀ ty, ty = ⟨15⟩ ∨ ty = ⟨18⟩ ∨ ty = ⟨16⟩ →
      request {} (appRequest ty) (attempts {} [appRequest ⟨14⟩] c') =
        .ok ⟨18⟩ (attempts {} [appRequest ⟨14⟩] c') := by
    intro ty hty
    refine asked_again referenced c' {} [appRequest ⟨14⟩] (appRequest ⟨15⟩) ⟨18⟩
      (inRange_app (by decide)) rfl rfl (by decide) hc' [appRequest ⟨14⟩] (appRequest ty)
      Nat.zero_lt_one (hty.imp_right (.imp_right ?_))
    rintro rfl
    exact ⟨by decide, ⟨15⟩, _, himplied, hfound, rfl, hreference⟩
  refine ⟨c', hc', fun ty hty => again ty ?_⟩
  simpa using hty

end Compilation

end StructuralTypes
