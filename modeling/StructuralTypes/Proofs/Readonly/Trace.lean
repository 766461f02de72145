import StructuralTypes.Proofs.Readonly.Provenance

/-!
# Tracing a search

Every way in which a step of the search can end keeps `Provenance`, with more clones known to it: a
step that gives a variant leaves no unfinished clone behind, and one that stops leaves those that it
was at work on.

Results:
* `Cloner.Visits.provenance`: visits keep what each of them keeps.
* **`Synth.provenance_of_ok`**: a search that gives a variant keeps the provenance of all clones,
  and its result stands for the type that was asked for.
* **`Synth.provenance_of_error`**: so does a search that stops; what it leaves behind is not
  remembered.
-/

namespace StructuralTypes

variable {cl : Cloner} {W : Session → Session → Prop} {T : TypeTable} {Reg : SymbolId → Prop}
  {Abandoned Unfinished : TypeId → Prop} {P P' P'' : TypeId → TypeId → Prop} {s s₁ t u : Session}
  {base c ty m v : TypeId} {e : TypeEntry} {d : Draft} {ms vs : List TypeId} {x : Stop}

/-- More clones are known in `P'` than in `P`, all of them needed for types in `ms`. -/
structure Grown (T : TypeTable) (ms : List TypeId) (P P' : TypeId → TypeId → Prop) : Prop where
  /-- What was known is known. -/
  le : ∀ b c, P b c → P' b c
  /-- What is new is needed. -/
  reaches : ∀ b c, P' b c → P b c ∨ ∃ m ∈ ms, T.Reaches m b

namespace Grown

theorem refl (P : TypeId → TypeId → Prop) : Grown T ms P P := ⟨fun _ _ h => h, fun _ _ h => .inl h⟩

theorem snoc (h : Grown T ms P P') (h' : Grown T [m] P' P'') : Grown T (ms ++ [m]) P P'' := by
  refine ⟨fun b c hP => h'.le b c (h.le b c hP), fun b c hP => ?_⟩
  rcases h'.reaches b c hP with hP | ⟨m', hm', hr⟩
  · exact (h.reaches b c hP).imp_right fun ⟨m', hm', hr⟩ => ⟨m', List.mem_append_left _ hm', hr⟩
  · exact .inr ⟨m', List.mem_append_right _ hm', hr⟩

/-- What the members of a type need, and a clone of its base, the type needs. -/
theorem adding (h : Grown T e.ty.members P P') (hu : T.Unfolds ty base e) :
    Grown T [ty] P (Adding P' base v) := by
  refine ⟨fun b c hP => .inl (h.le b c hP), ?_⟩
  rintro b c (hP | ⟨rfl, rfl⟩)
  · refine (h.reaches b c hP).imp_right fun ⟨m, hm, hr⟩ => ?_
    exact ⟨ty, List.mem_singleton_self ty, hr.of_member hu hm⟩
  · exact .inr ⟨ty, List.mem_singleton_self ty, hu.reaches⟩

/-- So it is when the clone was drafted before the members were visited. -/
theorem drafted (h : Grown T e.ty.members (Adding P base v) P') (hu : T.Unfolds ty base e) :
    Grown T [ty] P P' := by
  refine ⟨fun b c hP => h.le b c (.inl hP), fun b c hP => ?_⟩
  rcases h.reaches b c hP with (hP | ⟨rfl, -⟩) | ⟨m, hm, hr⟩
  · exact .inl hP
  · exact .inr ⟨ty, List.mem_singleton_self ty, hu.reaches⟩
  · exact .inr ⟨ty, List.mem_singleton_self ty, hr.of_member hu hm⟩

end Grown

/-- A cloner keeps the provenance of all clones, when it gives a variant. -/
def Cloner.Traces (cl : Cloner) (T : TypeTable) (Reg : SymbolId → Prop)
    (Abandoned : TypeId → Prop) : Prop :=
  ∀ {Unfinished P s ty v t}, Provenance T Reg Abandoned Unfinished P s → cl.Gives s ty v t →
    ∃ P', Grown T [ty] P P' ∧ Provenance T Reg Abandoned Unfinished P' t ∧ t.types.Replaces P' ty v

/-- **Visits keep what each of them keeps**, and what they give stands for the members. -/
theorem Cloner.Visits.provenance (h : cl.Visits W s ms vs t) (htr : cl.Traces T Reg Abandoned)
    (hT : T.Closed) (hms : ∀ m ∈ ms, m.index < T.entries.size)
    (hp : Provenance T Reg Abandoned Unfinished P s)
    (hwork : ∀ {ms vs P t u}, cl.Visits W s ms vs t → W t u →
      Provenance T Reg Abandoned Unfinished P t → Provenance T Reg Abandoned Unfinished P u) :
    ∃ P', Grown T ms P P' ∧ Provenance T Reg Abandoned Unfinished P' t ∧
      List.Forall₂ (T.Replaces P') ms vs := by
  induction h with
  | start => exact ⟨P, .refl P, hp, .nil⟩
  | visit _ gives ih =>
    obtain ⟨P₁, hg₁, hp₁, hvs⟩ := ih fun m hm => hms m (List.mem_append_left _ hm)
    obtain ⟨P₂, hg₂, hp₂, hv⟩ := htr hp₁ gives
    have hm := hT.replaces hp₂.grows hp₂.same (hms _ (by simp)) hv
    refine ⟨P₂, hg₁.snoc hg₂, hp₂, List.rel_append (hvs.imp fun _ _ hr => hr.imp hg₂.le) ?_⟩
    exact .cons hm .nil
  | work before hw ih =>
    obtain ⟨P₁, hg₁, hp₁, hvs⟩ := ih hms
    exact ⟨P₁, hg₁, hwork before hw hp₁, hvs⟩

/-! ## Drafts -/

namespace Provenance

/-- The members of a type that is open are old. -/
theorem members_lt (hp : Provenance T Reg Abandoned Unfinished P s) (hT : T.Closed)
    (ho : s.Opens ty base e) : ∀ m ∈ e.ty.members, m.index < T.entries.size :=
  fun m hm => hT base e (hp.unfolds ho).found m (.inl hm)

/-- A draft is an unfinished clone. -/
theorem drafts (hp : Provenance T Reg Abandoned Unfinished P s) (ho : s.Opens ty base e)
    (hd : s.Drafts base e d s₁) :
    Provenance T Reg Abandoned (Including Unfinished d.clone) (Adding P base d.clone) s₁ := by
  obtain ⟨body, hk, htypes⟩ := hd.types
  have hadd := hp.add (hp.unfolds ho).self (d.entry body)
    (by simp [Draft.entry, hd.flags]) (by simp [Draft.entry, Ty.isClonable, hk])
    (hk.trans hd.kind.symm)
  rw [← hd.clone] at hadd
  have hmemo := (Session.known?_eq_none_iff.1 ho.base_unknown).2
  refine (hadd.mark (.inr ⟨rfl, rfl⟩) (.inr rfl) hmemo).of_eq ?_ hd.memo hd.pending hd.package
  exact htypes

/-- Work on the draft keeps the provenance of all clones. -/
theorem drafts_work (hp : Provenance T Reg Abandoned Unfinished P s) (hcl : cl.Keeps)
    (hd : s.Drafts base e d s₁) (hvisits : cl.Visits (ChangesOnlyClone d.clone) s₁ ms vs t)
    (hw : ChangesOnlyClone d.clone t u)
    (h : Provenance T Reg Abandoned (Including Unfinished d.clone) P' t) :
    Provenance T Reg Abandoned (Including Unfinished d.clone) P' u := by
  have hdt := Session.Drafting.of_visits hcl hd hvisits
  refine h.changesOnlyClone (.inr rfl) (fun e' he' => ?_)
    (hp.same.trans (hdt.changesOnlyClone hd hw).same) hw
  obtain ⟨body, hbody, hk⟩ := hdt.body
  obtain rfl := Except.ok.inj (hbody.symm.trans he')
  simp [Draft.entry, hk]

end Provenance

/-- Visits to members of a type, with nothing done in between. -/
theorem Cloner.Visits.provenance_bare (h : cl.Visits Eq s ms vs t) (htr : cl.Traces T Reg Abandoned)
    (hT : T.Closed) (hp : Provenance T Reg Abandoned Unfinished P s) (ho : s.Opens ty base e)
    (hsub : ms ⊆ e.ty.members) :
    ∃ P', Grown T ms P P' ∧ Provenance T Reg Abandoned Unfinished P' t ∧
      List.Forall₂ (T.Replaces P') ms vs :=
  h.provenance htr hT (fun m hm => hp.members_lt hT ho m (hsub hm)) hp fun _ heq h => heq ▸ h

/-- Visits to members of a structure while its clone is filled. -/
theorem Cloner.Visits.provenance_drafting (h : cl.Visits (ChangesOnlyClone d.clone) s₁ ms vs t)
    (hcl : cl.Keeps) (htr : cl.Traces T Reg Abandoned) (hT : T.Closed)
    (hp : Provenance T Reg Abandoned Unfinished P s) (ho : s.Opens ty base e)
    (hd : s.Drafts base e d s₁) (hsub : ms ⊆ e.ty.members) :
    ∃ P', Grown T ms (Adding P base d.clone) P' ∧
      Provenance T Reg Abandoned (Including Unfinished d.clone) P' t ∧
      List.Forall₂ (T.Replaces P') ms vs :=
  h.provenance htr hT (fun m hm => hp.members_lt hT ho m (hsub hm)) (hp.drafts ho hd)
    fun hv hw h => hp.drafts_work hcl hd hv hw h

/-- Apart from its own clone, what was pending before a draft is pending after it. -/
theorem Session.Drafting.pending_of (h : s.Drafting base d t) (ho : s.Opens ty base e)
    {b c : TypeId} (hb : s.pending.get? b = some c) : t.pending.get? b = some c := by
  have hbase := (Session.known?_eq_none_iff.1 ho.base_unknown).1
  rw [h.pending, OrderedMap.get?_insert, if_neg, hb]
  rintro rfl
  simp [hbase] at hb

/-! ## Steps that give a variant -/

/-- A clone filled with what stands for the members has the shape of its base. -/
theorem Provenance.mirrors_of_filled (h : Provenance T Reg Abandoned Unfinished P t) (hT : T.Closed)
    (hs : T.Grows s.types) (hms : ∀ m ∈ e.ty.members, m.index < T.entries.size) {body : Ty}
    (filled : Filled s.types t.types e.ty vs body)
    (hvs : List.Forall₂ (T.Replaces P) e.ty.members vs) : e.ty.Mirrors T (T.Replaces P) body := by
  have hmem := (List.forall₂_and_left (p := (· ∈ e.ty.members)) _ _).2 ⟨fun _ hm => hm, hvs⟩
  refine filled.mirrors (R := T.Replaces P)
    (Q := fun m w => m ∈ e.ty.members ∧ T.Replaces P m w) ?_ hmem
  rintro m w ⟨hm, hr⟩
  -- only a type that is its own variant can have failed to resolve
  refine ⟨hr, fun hf => ?_, fun hf => ?_⟩
  · rcases hr with ⟨rfl, -⟩ | ⟨b, e', hb, -⟩
    · exact hf.grows hs
    · exact absurd hf hb.not_failed
  · rcases hr with ⟨rfl, -⟩ | ⟨b, e', -, hw⟩
    · exact (hT.failed_iff h.grows (hms _ hm)).1 hf
    · exact absurd hf (h.not_failed hw)

/-- A map or union that was rebuilt is a finished clone. -/
theorem Provenance.rebuilt (hp : Provenance T Reg Abandoned Unfinished P s) (hcl : cl.Keeps)
    (htr : cl.Traces T Reg Abandoned) (hT : T.Closed) (opens : s.Opens ty base e)
    (rebuilt : e.ty.isRebuilt) (visits : cl.Visits Eq s e.ty.members vs u) :
    ∃ P', Grown T [ty] P P' ∧ P' base ⟨u.types.entries.size⟩ ∧
      Provenance T Reg Abandoned Unfinished P'
      ((u.withVariant e vs).remembering base ty ⟨u.types.entries.size⟩) := by
  have hu := hp.unfolds opens
  obtain ⟨P₁, hg, hp₁, hvs⟩ := visits.provenance_bare htr hT hp opens (List.Subset.refl _)
  have hrebuild := mirrors_rebuild rebuilt hvs (T := T)
  have hadd := hp₁.add hu.self { ty := e.ty.rebuild vs, flags := e.flags ∪ .only .readonly }
    (by simp) hrebuild.isClonable hrebuild.structureKind?_eq
  have hnone : ∀ k, s.known? k = none → u.pending.get? k = none := fun k hk => by
    rw [(visits.follows hcl).pending]
    exact (Session.known?_eq_none_iff.1 hk).1
  refine ⟨_, hg.adding hu, .inr ⟨rfl, rfl⟩, hadd.remember u.package [] (.inr ⟨rfl, rfl⟩)
    hp₁.not_unfinished hu (TypeTable.find_add_self _ _) (hnone ty opens.unknown)
    (hnone base opens.base_unknown) ?_ ?_ (by simp) (by simp) fun hs => ?_⟩
  · exact hrebuild.imp (fun _ _ _ hr => hr.imp fun _ _ => .inl) fun _ _ => Iff.rfl
  · -- another clone of the base can only have been made on the way
    rintro c (hP | ⟨-, hc⟩) hunfinished hne
    · rcases hg.reaches base c hP with hP | ⟨m, hm, hr⟩
      · obtain ⟨e', he', -⟩ := hp.clone hP hu.self
        have hknown := (hp.finished hP hunfinished hu.self he').remembered
        exact absurd (Session.known?_eq_none_iff.1 opens.base_unknown).2 hknown
      · exact ⟨e, hu.self, rebuilt, m, hm, hr⟩
    · exact absurd hc hne
  · simp [Ty.isRebuilt_eq_false hs] at rebuilt

/-- A structure that was cloned has a finished clone. -/
theorem Provenance.cloned (hp : Provenance T Reg Abandoned Unfinished P s) (hcl : cl.Keeps)
    (htr : cl.Traces T Reg Abandoned) (hT : T.Closed) (opens : s.Opens ty base e)
    (clones : Clones cl s base e v t) :
    ∃ P', Grown T [ty] P P' ∧ P' base v ∧
      Provenance T Reg Abandoned Unfinished P' (t.remembering base ty v) := by
  cases clones with
  | @intro d s₁ u vs body definition drafts visits entry filled keeps symbol_eq ty_eq =>
    have hu := hp.unfolds opens
    obtain ⟨P₁, hg, hp₁, hvs⟩ :=
      visits.provenance_drafting hcl htr hT hp opens drafts (List.Subset.refl _)
    have hdrafting := Session.Drafting.of_visits hcl drafts visits
    have hP : P₁ base d.clone := hg.le _ _ (.inr ⟨rfl, rfl⟩)
    have hnot : ¬Unfinished d.clone := drafts.clone ▸ hp.not_unfinished
    have hmirrors := hp₁.mirrors_of_filled hT hp.grows (hp.members_lt hT opens) filled hvs
    have hp₂ := hp₁.of_pending fun b c hb => hdrafting.pending_of opens hb
    refine ⟨P₁, hg.drafted hu, hP, hp₂.remember _ [definition] hP hnot hu entry
      (Session.known?_eq_none_iff.1 opens.unknown).1
      (Session.known?_eq_none_iff.1 opens.base_unknown).1 hmirrors ?_ rfl (by simp [ty_eq])
      fun _ => ⟨d.holder, rfl, definition, by simp, symbol_eq⟩⟩
    -- no other clone can be finished while one is pending
    intro c hc hunfinished hne
    obtain ⟨e', he', -⟩ := hp₁.clone hc hu.self
    have hraw' : ¬Including Unfinished d.clone c := fun h => h.elim hunfinished hne
    have hpending : u.pending.get? base = some d.clone := by
      rw [hdrafting.pending, OrderedMap.get?_insert, if_pos rfl]
    exact absurd (hp₁.pending hpending).2.2 (hp₁.finished hc hraw' hu.self he').remembered

/-- A step that gives a variant keeps the provenance of all clones. -/
theorem StepsTo.provenance (h : StepsTo cl s ty v t) (hcl : cl.Keeps)
    (htr : cl.Traces T Reg Abandoned) (hT : T.Closed)
    (hp : Provenance T Reg Abandoned Unfinished P s) :
    ∃ P', Grown T [ty] P P' ∧ Provenance T Reg Abandoned Unfinished P' t ∧
      t.types.Replaces P' ty v := by
  cases h with
  | atHand hand => exact ⟨P, .refl P, hp, hp.replaces_of_atHand hand⟩
  | @rebuilt base e vs u opens rebuilt visits =>
    obtain ⟨P', hg, hP, hp'⟩ := hp.rebuilt hcl htr hT opens rebuilt visits
    exact ⟨P', hg, hp', .inr ⟨base, e, hp'.same.unfolds_iff.1 (hp.unfolds opens), hP⟩⟩
  | @cloned base v e u opens _ clones =>
    obtain ⟨P', hg, hP, hp'⟩ := hp.cloned hcl htr hT opens clones
    exact ⟨P', hg, hp', .inr ⟨base, e, hp'.same.unfolds_iff.1 (hp.unfolds opens), hP⟩⟩

/-! ## Steps that stop -/

/-- A search that began in `s` has left `c` behind, the clone of a structure: it is new, no variant
of the structure is remembered, and the clone's symbol is new and has no definition. -/
structure LeftBehind (T : TypeTable) (P : TypeId → TypeId → Prop) (s t : Session) (c : TypeId) :
    Prop where
  /-- The clone is new. -/
  new : s.types.entries.size ≤ c.index
  /-- Its base has no variant. -/
  source : ∃ b e, P b c ∧ T.Unfolds b b e ∧ e.ty.structureKind?.isSome ∧ t.memo.get? b = none
  /-- Its symbol was not given a definition. -/
  undefined : ∀ e' x, t.types.find c = .ok e' → e'.symbol = some x →
    s.symbols.symbols.size ≤ x.index ∧
      ∀ f ∈ t.package.typeDefinitions, f ∈ s.package.typeDefinitions ∨ f.symbol ≠ x

/-- What was left behind by a search that went on from `u`, to which one led from `s`. -/
theorem LeftBehind.of_later {n : Nat} (h : LeftBehind T P u t c)
    (htypes : s.types.entries.size ≤ u.types.entries.size)
    (hsymbols : s.symbols.symbols.size ≤ u.symbols.symbols.size) (hdefs : s.DefinesFrom n u) :
    LeftBehind T P s t c where
  new := Nat.le_trans htypes h.new
  source := h.source
  undefined e' x he' hx := by
    obtain ⟨hle, hfs⟩ := h.undefined e' x he' hx
    refine ⟨Nat.le_trans hsymbols hle, fun f hf => ?_⟩
    rcases hfs f hf with hf | hne
    · refine (hdefs f hf).imp_right ?_
      rintro ⟨-, hlt⟩ rfl
      exact Nat.lt_irrefl _ (Nat.lt_of_lt_of_le hlt hle)
    · exact .inr hne

/-- It does not matter what is pending then. -/
theorem LeftBehind.of_pending (h : LeftBehind T P s t c) (p : CloneMap) :
    LeftBehind T P s { t with pending := p } c :=
  ⟨h.new, h.source, h.undefined⟩

/-- A search that began in `s` with `Unfinished` and `P` has stopped in `t` with `Unfinished'` and
`P'`. -/
structure Leaves (T : TypeTable) (Unfinished : TypeId → Prop) (P : TypeId → TypeId → Prop)
    (s : Session) (Unfinished' : TypeId → Prop) (P' : TypeId → TypeId → Prop) (t : Session) :
    Prop where
  /-- What was known is known. -/
  le : ∀ b c, P b c → P' b c
  /-- What was unfinished is unfinished. -/
  unfinished : ∀ c, Unfinished c → Unfinished' c
  /-- What is unfinished now was so before or was left behind. -/
  left : ∀ c, Unfinished' c → Unfinished c ∨ LeftBehind T P' s t c

theorem Leaves.refl (s : Session) : Leaves T Unfinished P s Unfinished P s :=
  ⟨fun _ _ h => h, fun _ h => h, fun _ h => .inl h⟩

/-- A cloner keeps the provenance of all clones, when it stops. -/
def Cloner.TracesStops (cl : Cloner) (T : TypeTable) (Reg : SymbolId → Prop)
    (Abandoned : TypeId → Prop) : Prop :=
  ∀ {Unfinished P s ty x t}, Provenance T Reg Abandoned Unfinished P s → cl.Breaks s ty x t →
    ∃ Unfinished' P', Leaves T Unfinished P s Unfinished' P' t ∧
      Provenance T Reg Abandoned Unfinished' P' t

/-- What a draft leaves behind when it is abandoned: itself, and what was left behind below it. -/
theorem Leaves.drafts {Unfinished' : TypeId → Prop} (hp : Provenance T Reg Abandoned Unfinished P s)
    (ho : s.Opens ty base e) (hd : s.Drafts base e d s₁) (hdu : s.Drafting base d u)
    (hut : u.Follows t) (hp₁ : Provenance T Reg Abandoned (Including Unfinished d.clone) P' u)
    (hg : Grown T ms (Adding P base d.clone) P')
    (hl : Leaves T (Including Unfinished d.clone) P' u Unfinished' P'' t)
    (h : Provenance T Reg Abandoned Unfinished' P'' t) :
    Leaves T Unfinished P s Unfinished' P'' { t with pending := s.pending } := by
  have hP : P' base d.clone := hg.le _ _ (.inr ⟨rfl, rfl⟩)
  have hclone := hd.clone_index
  have hholder := hd.holder_index
  have hdt := hdu.follows hut
  refine ⟨fun b c hb => hl.le b c (hg.le b c (.inl hb)), fun c hc => hl.unfinished c (.inl hc), ?_⟩
  intro c hc
  rcases hl.left c hc with (hc | rfl) | hleft
  · exact .inl hc
  · have hu := (hp.unfolds ho).self
    refine .inr ⟨Nat.le_of_eq hclone.symm, ⟨base, e, hl.le _ _ hP, hu, ?_, ?_⟩, ?_⟩
    · simp [hd.kind]
    · refine (h.pending (b := base) (c := d.clone) ?_).2.2
      rw [hdt.pending, OrderedMap.get?_insert, if_pos rfl]
    · intro e' x he' hx
      obtain ⟨body, hbody, -⟩ := hdt.body
      obtain rfl := Except.ok.inj (hbody.symm.trans he')
      obtain rfl := Option.some.inj hx
      refine ⟨Nat.le_of_eq hholder.symm, fun f hf => (hdt.definitions f hf).imp_right ?_⟩
      rintro ⟨hle, -⟩ heq
      rw [heq] at hle
      exact Nat.lt_irrefl _ hle
  · have hsize := hp₁.lt_size hP
    have hlt := hdu.holder
    exact .inr ((hleft.of_later (by omega) (by omega) hdu.definitions).of_pending s.pending)

/-- A step that stops keeps the provenance of all clones. -/
theorem StepStops.provenance (h : StepStops ctx cl s ty x t) (hcl : cl.Keeps)
    (htr : cl.Traces T Reg Abandoned) (hst : cl.TracesStops T Reg Abandoned) (hT : T.Closed)
    (hp : Provenance T Reg Abandoned Unfinished P s) :
    ∃ Unfinished' P', Leaves T Unfinished P s Unfinished' P' t ∧
      Provenance T Reg Abandoned Unfinished' P' t := by
  cases h with
  | refused => exact ⟨Unfinished, P, .refl s, hp⟩
  | @rebuilding base m e pre post vs _ t _ opens rebuilt split before breaks =>
    obtain ⟨P₁, hg, hp₁, -⟩ := before.provenance_bare htr hT hp opens (by simp [split])
    obtain ⟨Unfinished', P', hl, hp'⟩ := hst hp₁ breaks
    have hf := before.follows hcl
    refine ⟨Unfinished', P',
      ⟨fun b c hb => hl.le b c (hg.le b c hb), hl.unfinished, fun c hc => ?_⟩, hp'⟩
    exact (hl.left c hc).imp_right fun hleft =>
      hleft.of_later hf.keeps.types.size_le hf.keeps.symbols.size_le hf.definitions
  | @cloning base e _ _ opens structured abandons =>
    cases abandons with
    | early => exact ⟨Unfinished, P, .refl s, hp⟩
    | @late d s₁ t _ _ _ drafts stops =>
      have hdt := Session.Drafting.of_stops hcl drafts stops
      cases stops with
      | @call pre post vs m u _ _ split before breaks =>
        obtain ⟨P₁, hg, hp₁, -⟩ :=
          before.provenance_drafting hcl htr hT hp opens drafts (by simp [split])
        obtain ⟨Unfinished', P', hl, hp'⟩ := hst hp₁ breaks
        have hdu := Session.Drafting.of_visits hcl drafts before
        exact ⟨Unfinished', P', .drafts hp opens drafts hdu (hcl.breaks breaks) hp₁ hg hl hp',
          hp'.of_pending fun b c hb => hdt.pending_of opens hb⟩
      | work part before ends =>
        obtain ⟨P₁, hg, hp₁, -⟩ :=
          before.provenance_drafting hcl htr hT hp opens drafts part.subset
        exact ⟨_, P₁, .drafts hp opens drafts hdt (.refl t) hp₁ hg (.refl t) hp₁,
          hp₁.of_pending fun b c hb => hdt.pending_of opens hb⟩

/-! ## The whole search -/

namespace Synth

variable {ctx : Context} {n : Nat}

theorem readonlyWithin_traces (ctx : Context) (n : Nat) (hT : T.Closed) :
    Cloner.Traces (readonlyWithin ctx n) T Reg Abandoned := by
  refine readonlyWithin_induction (C := (Cloner.Traces · T Reg Abandoned)) ctx
    (fun cl hnone _ => ?_) (fun m cl ih hstep _ => ?_) n
  · intro Unfinished P s ty v t _ h
    exact absurd h hnone
  · intro Unfinished P s ty v t hp h
    exact (hstep h).provenance (readonlyWithin_keeps ctx m) ih hT hp

theorem readonlyWithin_tracesStops (ctx : Context) (n : Nat) (hT : T.Closed) :
    Cloner.TracesStops (readonlyWithin ctx n) T Reg Abandoned := by
  refine readonlyWithin_induction (C := (Cloner.TracesStops · T Reg Abandoned)) ctx
    (fun cl _ hstop => ?_) (fun m cl ih _ hstep => ?_) n
  · intro Unfinished P s ty x t hp h
    obtain ⟨-, rfl⟩ := hstop h
    exact ⟨Unfinished, P, .refl _, hp⟩
  · intro Unfinished P s ty x t hp h
    exact (hstep h).provenance (readonlyWithin_keeps ctx m) (readonlyWithin_traces ctx m hT) ih hT
      hp

/-- **A search that gives a variant keeps the provenance of all clones**, and its result stands for
the type that was asked for. -/
theorem provenance_of_ok {stamp : Stamp} (hT : T.Closed)
    (hp : Provenance T Reg Abandoned Unfinished P s)
    (h : readonlyVariant ctx stamp ty s = .ok v t) :
    ∃ P', Grown T [ty] P P' ∧ Provenance T Reg Abandoned Unfinished P' t ∧
      t.types.Replaces P' ty v :=
  readonlyWithin_traces ctx _ hT hp ⟨stamp, h⟩

/-- **So does a search that stops**; what it leaves behind are clones of structures that have no
variant. -/
theorem provenance_of_error {stamp : Stamp} (hT : T.Closed)
    (hp : Provenance T Reg Abandoned Unfinished P s)
    (h : readonlyVariant ctx stamp ty s = .error x t) :
    ∃ Unfinished' P', Leaves T Unfinished P s Unfinished' P' t ∧
      Provenance T Reg Abandoned Unfinished' P' t :=
  readonlyWithin_tracesStops ctx _ hT hp ⟨stamp, h⟩

end Synth

end StructuralTypes
