import StructuralTypes.Proofs.Readonly.Mirror

/-!
# One clone per type

A structure that is met inside itself leads to its unfinished clone, so it is cloned once. A map or
union is only remembered when it is finished. If its members lead back to it, which they can do by
way of a structure, it is rebuilt inside itself, and again when the search comes back: there are two
clones, and only the second is remembered.

Results:
* `oneClone_of_not_recurs`: what is not built from itself in this way has one clone, whatever is
  requested.
* `not_oneClone_of_recurs`: what is has two, when it is requested first.
* **`one_clone_iff`**: both together.
-/

namespace StructuralTypes

/-! ## Clones in a table -/

/-- In the table `T'`, which grew out of `T`, the clones are those that `P` tells of. -/
structure TypeTable.Clones (T T' : TypeTable) (memo : CloneMap) (P : TypeId → TypeId → Prop) :
    Prop where
  /-- A clone has the shape of its base. -/
  source : ∀ {b v}, P b v → T.entries.size ≤ v.index ∧ ∃ e e', T.Unfolds b b e ∧
    T'.find v = .ok e' ∧ e.ty.Mirrors T (T.Replaces P) e'.ty
  /-- What is remembered is a clone of what the type stands for. -/
  memo : ∀ {k v}, memo.get? k = some v → ∃ b e, T.Unfolds k b e ∧ P b v
  /-- All that was added are clones, apart from function types. -/
  all : ∀ {v e'}, T.entries.size ≤ v.index → T'.find v = .ok e' → ¬e'.ty.isInvokable → ∃ b, P b v

namespace Compilation

variable {slots : CloneSlots} {c c' : Compilation} {T : TypeTable}
  {Abandoned Unfinished : TypeId → Prop}
  {P : TypeId → TypeId → Prop} {r : CloneRequest} {rs : List CloneRequest} {vs : List TypeId}
  {b u v m w : TypeId} {e : TypeEntry} {Reg : SymbolId → Prop} {s t : Session}

/-- A request for `ty` finds the variant `v` and changes nothing. -/
def Finds (c : Compilation) (slots : CloneSlots) (ty v : TypeId) : Prop :=
  ∀ ctx stamp package, Synth.readonlyVariant ctx stamp ty (c.session package slots) =
    .ok v (c.session package slots)

/-- The type `u` of the compilation `c` has one clone in `c'`: wherever a clone has a member for
it, the member is what is remembered for `u`, which is also what is found from then on. -/
def OneClone (slots : CloneSlots) (c c' : Compilation) (u : TypeId) : Prop :=
  ∃ P, c.types.Clones c'.types (c'.memo slots.memo) P ∧
    (∀ b v e e', P b v → c.types.find b = .ok e → c'.types.find v = .ok e' →
      e.ty.Mirrors c.types (fun m w => c.types.isReadonly m = .ok false →
        c.types.implied m = .ok u → c.types.isReadonly u = .ok false →
          (c'.memo slots.memo).get? u = some w ∧ c'.Finds slots m w) e'.ty) ∧
    ∀ v v', P u v → P u v' → v = v'

/-! ## What is not built from itself -/

theorem Traced.clones_of (h : Traced slots T Abandoned (fun _ => False) P c')
    (hlost : ∀ x, ¬Abandoned x) : T.Clones c'.types (c'.memo slots.memo) P where
  source := by
    intro b v hP
    obtain ⟨hle, e, he⟩ := h.clones.source hP
    obtain ⟨e', he', -⟩ := h.clones.clone hP he
    exact ⟨hle, e, e', he, he', (h.clones.finished hP id he he').mirrors⟩
  memo hk := (h.clones.memo hk).2
  all hle he' hn := by
    rcases h.clones.all hle (TypeTable.find_eq_ok_iff.1 he') with hi | hl | hP
    · exact absurd hi hn
    · exact absurd hl (hlost _)
    · exact hP

/-- What is at hand is found. -/
theorem finds_of_atHand (h : (c.bare slots).AtHand m v) : c.Finds slots m v := by
  intro ctx stamp package
  have hv : (c.session package slots).AtHand m v := h.of_package package
  have hends := Synth.ends_cloneStep (s := c.session package slots) (Synth.readonlyWithin_keeps ctx
    ((c.types.entries.size + 1) * (c.types.entries.size + 1))) ctx stamp m
  cases hr : Synth.readonlyVariant ctx stamp m (c.session package slots) with
  | ok w t =>
    cases hends.of_ok hr with
    | atHand hw => rw [hw.unique hv]
    | rebuilt opens => exact absurd ⟨_, _, opens⟩ hv.not_open
    | cloned opens => exact absurd ⟨_, _, opens⟩ hv.not_open
  | error x t =>
    cases hends.of_error hr with
    | refused _ _ without => exact absurd hv (without v)
    | rebuilding opens => exact absurd ⟨_, _, opens⟩ hv.not_open
    | cloning opens => exact absurd ⟨_, _, opens⟩ hv.not_open

/-- Between requests, what is known is what is remembered. -/
theorem Traced.known?_eq (h : Traced slots T Abandoned Unfinished P c) (k : TypeId) :
    (c.bare slots).known? k = (c.memo slots.memo).get? k := by
  have hpending : (c.bare slots).pending.get? k = none := h.idle k
  unfold Session.known?
  rw [hpending]
  rfl

/-- A type that stands for one with a sole clone has that clone at hand. -/
theorem Traced.atHand_of_unfolds (h : Traced slots T Abandoned Unfinished P c)
    (hu : T.Unfolds m u e)
    (hremembered : (c.memo slots.memo).get? u = some w) (hrecurs : ¬T.Recurs u) :
    (c.bare slots).AtHand m w := by
  have hc : c.types.Unfolds m u e := h.clones.same.unfolds_iff.1 hu
  cases hm : (c.bare slots).known? m with
  | none => exact .baseKnown hm hc.writable hc.implied ((h.known?_eq u).trans hremembered)
  | some x =>
    -- what is remembered for the type itself is a clone of the same base
    obtain ⟨hunfinished, b, d, hb, hP⟩ := h.clones.memo ((h.known?_eq m).symm.trans hm)
    obtain ⟨rfl, rfl⟩ := hb.unique hu
    obtain ⟨e', he', -⟩ := h.clones.clone hP hb.self
    have hsole := (h.clones.finished hP hunfinished hb.self he').sole hrecurs
    obtain rfl := Option.some.inj (hsole.symm.trans hremembered)
    exact .known hm

/-- A type that stands for one with a sole clone finds that clone. -/
theorem Traced.finds (h : Traced slots T Abandoned (fun _ => False) P c') (hu : T.Unfolds m u e)
    (hP : P u w) (hrecurs : ¬T.Recurs u) :
    (c'.memo slots.memo).get? u = some w ∧ c'.Finds slots m w := by
  obtain ⟨e', he', -⟩ := h.clones.clone hP hu.self
  have hsole := (h.clones.finished hP id hu.self he').sole hrecurs
  exact ⟨hsole, finds_of_atHand (h.atHand_of_unfolds hu hsole hrecurs)⟩

/-- **What is not built from itself without a structure in between has one clone**, whatever is
requested. -/
theorem oneClone_of_not_recurs (hc : c.InRange) (hmemo : c.memo slots.memo = ∅)
    (hpending : c.pending slots.pending = ∅) (hplain : c.types.PlainReferences)
    (hrecurs : ¬c.types.Recurs u) (hrun : rs.mapM (request slots) c = .ok vs c') :
    OneClone slots c c' u := by
  obtain ⟨P, -, h, -⟩ := (Traced.start hc hmemo hpending).run hc.types hrun
  have hclones := h.clones_of fun _ => id
  refine ⟨P, hclones, fun b v e e' hP he he' => ?_, fun v v' hv hv' => ?_⟩
  · obtain ⟨-, d, d', hd, hd', hmirrors⟩ := hclones.source hP
    obtain rfl := Except.ok.inj (he.symm.trans hd.found)
    obtain rfl := Except.ok.inj (he'.symm.trans hd')
    refine hmirrors.imp (fun m _ w hw hm himplied hu => ?_) fun _ _ => Iff.rfl
    rcases hw with ⟨-, hr⟩ | ⟨base, e, hbase, hw⟩
    · exact absurd (hu.symm.trans (hr.settled.isReadonly_base hplain himplied)) (by simp)
    · obtain rfl := Except.ok.inj (himplied.symm.trans hbase.implied)
      exact h.finds hbase hw hrecurs
  · obtain ⟨-, d, -, hd, -⟩ := hclones.source hv
    exact Option.some.inj ((h.finds hd hv hrecurs).1.symm.trans (h.finds hd hv' hrecurs).1)

/-! ## What is built from itself -/

/-- What the clones are made of is there. -/
theorem member_lt_size {Abandoned : TypeId → Prop} (hT : T.Closed)
    (h : Provenance T Reg Abandoned (fun _ => False) P s) (hlost : ∀ x, ¬Abandoned x)
    (hle : T.entries.size ≤ v.index) (he : s.types.find v = .ok e) (hm : m ∈ e.ty.members) :
    m = Builtin.never ∨ m.index < s.types.entries.size := by
  rcases h.all hle (TypeTable.find_eq_ok_iff.1 he) with hi | hl | ⟨b, hP⟩
  · cases hty : e.ty <;> simp_all [Ty.isInvokable, Ty.members]
  · exact absurd hl (hlost _)
  · obtain ⟨-, d, hd⟩ := h.source hP
    refine ((h.finished hP id hd he).mirrors.back hm).imp_right ?_
    rintro ⟨k, hk, ⟨rfl, -⟩ | ⟨base, d', -, hPm⟩⟩
    · exact Nat.lt_of_lt_of_le (hT b d hd.found m (.inl hk)) h.grows.size_le
    · exact h.lt_size hPm

/-- A map or union that is rebuilt is newer than all that clones are made of. -/
theorem last_of_rebuilt {ctx : Context} {stamp : Stamp} (hT : T.Closed)
    (hp : Provenance T Reg Abandoned (fun _ => False) P s) (hlost : ∀ x, ¬Abandoned x)
    (ho : s.Opens u u e) (hr : e.ty.isRebuilt) (h : Synth.readonlyVariant ctx stamp u s = .ok v t) :
    t.memo.get? u = some v ∧ T.entries.size ≤ v.index ∧
      ∀ x d, T.entries.size ≤ x.index → t.types.find x = .ok d →
        ∀ m ∈ d.ty.members, m = Builtin.never ∨ m.index < v.index := by
  obtain ⟨n, -, hstep⟩ := Synth.stepsTo_of_gives ⟨stamp, h⟩
  cases hstep with
  | atHand hand => exact absurd ⟨_, _, ho⟩ hand.not_open
  | cloned opens structured =>
    obtain ⟨rfl, rfl⟩ := opens.unfolds.unique ho.unfolds
    simp [Ty.isRebuilt_eq_false structured] at hr
  | @rebuilt base e' ws t opens rebuilt visits =>
    obtain ⟨rfl, rfl⟩ := opens.unfolds.unique ho.unfolds
    have hu := hp.unfolds ho
    obtain ⟨P₁, -, hp₁, hws⟩ := visits.provenance (Synth.readonlyWithin_traces ctx n hT) hT
      (hp.members_lt hT ho) hp fun _ heq h => heq ▸ h
    refine ⟨?_, hp₁.grows.size_le, fun x d hx hd m hm => ?_⟩
    · rw [Session.get?_remembering, if_pos rfl]
    · by_cases hlt : x.index < t.types.entries.size
      · have hold : t.types.find x = .ok d :=
          TypeTable.Grows.find_of_lt (StructuralTypes.Grows.push _ _) hd hlt
        exact member_lt_size hT hp₁ hlost hx hold hm
      · -- the last type is the rebuilt one
        obtain rfl : x = ⟨t.types.entries.size⟩ := by
          have := TypeTable.lt_of_find hd
          simp only [Session.withVariant, Session.remembering, TypeTable.add,
            Array.size_push] at this
          exact congrArg TypeId.mk (by omega)
        obtain rfl := Except.ok.inj ((TypeTable.find_add_self _ _).symm.trans hd)
        refine ((mirrors_rebuild (T := T) rebuilt hws).back hm).imp_right ?_
        rintro ⟨k, hk, ⟨rfl, -⟩ | ⟨b, d', -, hPm⟩⟩
        · exact Nat.lt_of_lt_of_le (hT base _ hu.found m (.inl hk)) hp₁.grows.size_le
        · exact hp₁.lt_size hPm

/-- What a clone needs, down to any depth, is a member of something that was cloned. -/
theorem member_of_needs {T' : TypeTable} {memo : CloneMap} (hclones : T.Clones T' memo P)
    (hu : T.Unfolds u u e) (hP : P u v) (hm : m ∈ e.ty.members)
    (hneeds : Relation.ReflTransGen T.Needs m w) :
    ∃ b d x, P b x ∧ T.Unfolds b b d ∧ w ∈ d.ty.members := by
  induction hneeds with
  | refl => exact ⟨u, e, v, hP, hu, hm⟩
  | tail _ hstep ih =>
    obtain ⟨b, d, x, hPx, hb, hmem⟩ := ih
    obtain ⟨base, d', hbase, hmem'⟩ := hstep
    obtain ⟨-, e₁, e', he₁, -, hmirrors⟩ := hclones.source hPx
    obtain rfl := (he₁.unique hb).2
    obtain ⟨x', -, hx'⟩ := hmirrors.forth hmem hbase.not_failed
    exact ⟨base, d', x', hx'.of_unfolds hbase, hbase.self, hmem'⟩

/-- **What is built from itself without a structure in between has two clones** when it is requested
first. -/
theorem not_oneClone_of_recurs (hc : c.InRange) (hmemo : c.memo slots.memo = ∅)
    (hpending : c.pending slots.pending = ∅) (hrecurs : c.types.Recurs r.ty)
    (hr : request slots r c = .ok v c') :
    ¬OneClone slots c c' r.ty := by
  rintro ⟨P, hclones, hmembers, -⟩
  obtain ⟨e, hu, hrebuilt, m, hm, w, d, hneeds, hw⟩ := hrecurs
  obtain ⟨package, t, hpackage, hv, rfl⟩ := request_eq_ok hr
  have hstart := (Traced.start hc hmemo hpending).session (Array.mem_of_getElem? hpackage)
  have hunknown : (c.session package slots).known? r.ty = none := by
    rw [Session.known?_eq_none_iff]
    show (c.pending slots.pending).get? _ = none ∧ (c.memo slots.memo).get? _ = none
    rw [hmemo, hpending]
    exact ⟨rfl, rfl⟩
  obtain ⟨hremembered, hle, hlast⟩ := last_of_rebuilt hc.types hstart (fun _ => id)
    ⟨hu, hunknown, hunknown⟩ hrebuilt hv
  have hmemo' : ((c.keep r.environment.package slots t).memo slots.memo).get? r.ty = some v := by
    have hs := congrArg Session.memo (session_keep c r.environment.package slots t package)
    exact (congrArg (·.get? r.ty) hs).trans hremembered
  -- the clone that is remembered for the type is a member of a clone
  obtain ⟨b, _, hb, hPv⟩ := hclones.memo hmemo'
  obtain rfl := (hb.unique hu).1
  obtain ⟨b', d', x, hPx, hb', hmem⟩ := member_of_needs hclones hu hPv hm hneeds
  obtain ⟨hlex, e₁, e', he₁, he', -⟩ := hclones.source hPx
  obtain rfl := (he₁.unique hb').2
  have hmirrors := hmembers b' x _ e' hPx hb'.found he'
  obtain ⟨y, hy, hyw⟩ := hmirrors.forth hmem hw.not_failed
  obtain rfl := Option.some.inj
    (hmemo'.symm.trans (hyw hw.writable hw.implied hw.isReadonly_base).1)
  rcases hlast x e' hlex he' v hy with rfl | hlt
  · have hsize := hc.builtins
    exact absurd (Nat.le_trans hsize hle) (by decide)
  · exact Nat.lt_irrefl _ hlt

/-- **A type has one clone, whatever is requested, if and only if it is not built from itself**
without a structure in between. -/
theorem one_clone_iff (c : Compilation) (slots : CloneSlots) (u : TypeId) (hc : c.InRange)
    (hmemo : c.memo slots.memo = ∅) (hpending : c.pending slots.pending = ∅)
    (hplain : c.types.PlainReferences)
    (hanswered : ∃ r v c', r.ty = u ∧ request slots r c = .ok v c') :
    (∀ (rs : List CloneRequest) vs c', rs.mapM (request slots) c = .ok vs c' →
      OneClone slots c c' u) ↔
      ¬c.types.Recurs u := by
  constructor
  · intro h hrecurs
    obtain ⟨r, v, c', rfl, hr⟩ := hanswered
    exact not_oneClone_of_recurs hc hmemo hpending hrecurs hr (h [r] [v] c' (mapM_singleton hr))
  · intro hrecurs rs vs c' hrun
    exact oneClone_of_not_recurs hc hmemo hpending hplain hrecurs hrun

/-- The record of `linked` has one clone. -/
theorem linked_one_clone :
    (∀ (rs : List CloneRequest) vs c', rs.mapM (request {}) linked = .ok vs c' →
      OneClone {} linked c' ⟨14⟩) ↔ ¬linked.types.Recurs ⟨14⟩ := by
  have hrun : answers? (request {} (appRequest ⟨14⟩) linked) = some ⟨16⟩ := by decide +kernel
  obtain ⟨c', hc'⟩ := answers?_eq_some hrun
  exact one_clone_iff linked {} ⟨14⟩ (inRange_app (by decide)) rfl rfl (by decide)
    ⟨appRequest ⟨14⟩, _, c', rfl, hc'⟩

/-- A union of `int` and of records with a field for such a union. -/
def nested : Compilation :=
  app [("R", ⟨15⟩)] [{ ty := .union [⟨15⟩, Builtin.int] }, appRecord ⟨1⟩ [("f", ⟨14⟩)]]

theorem nested_recurs : nested.types.Recurs ⟨14⟩ := by
  have hunion : nested.types.Unfolds ⟨14⟩ ⟨14⟩ { ty := .union [⟨15⟩, Builtin.int] } :=
    ⟨rfl, rfl, rfl, rfl, rfl⟩
  obtain ⟨e, he, hm⟩ : ∃ e, nested.types.Unfolds ⟨15⟩ ⟨15⟩ e ∧ ⟨14⟩ ∈ e.ty.members := by
    refine ⟨_, ⟨rfl, rfl, rfl, rfl, rfl⟩, ?_⟩
    decide
  exact ⟨_, hunion, rfl, ⟨15⟩, by decide, ⟨14⟩, _, .single ⟨⟨15⟩, e, he, hm⟩, hunion⟩

/-- What a request gives, what is then remembered for a type, and what another one is made of. -/
def outcome? (r : CloneRequest) (k x : TypeId) (c : Compilation) :
    Option (TypeId × Option TypeId × List TypeId) :=
  match request {} r c with
  | .ok v c' =>
    match c'.types.find x with
    | .ok e => some (v, (c'.memo 0).get? k, e.ty.members)
    | .error _ => none
  | .error _ _ => none

/-- The union has two clones: one is remembered, the clone of the record is made of the other. -/
theorem nested_two_clones :
    outcome? (appRequest ⟨14⟩) ⟨14⟩ ⟨16⟩ nested = some (⟨19⟩, some ⟨19⟩, [⟨17⟩]) ∧
      ¬∀ (rs : List CloneRequest) vs c', rs.mapM (request {}) nested = .ok vs c' →
        OneClone {} nested c' ⟨14⟩ := by
  constructor
  · decide +kernel
  · intro h
    have hrun : answers? (request {} (appRequest ⟨14⟩) nested) = some ⟨19⟩ := by decide +kernel
    obtain ⟨c', hc'⟩ := answers?_eq_some hrun
    exact not_oneClone_of_recurs (c := nested) (inRange_app (by decide)) rfl rfl
      nested_recurs hc' (h _ _ _ (mapM_singleton hc'))

end Compilation

end StructuralTypes
