import Mathlib.Data.Finset.Card
import Mathlib.Order.Interval.Finset.Nat
import StructuralTypes.Proofs.Readonly.Closure

/-!
# When the search ends

A structure met inside itself leads to its unfinished clone, and there are only so many structures
to be pending at a time. Between two pending structures the search goes down maps and unions, and
these nothing stops: the search for a type from which open types lead to a circle of maps and unions
alone never gives a variant, whatever the depth. It ends only if it stops for another reason first.
Apart from that it always ends, at the latest at the depth `cloneDepth`.

Results:
* **`not_gives_of_circle`**: a type that leads into such a circle has no variant.
* **`readonlyVariant_returns`**: a type that does not is searched to the end.
* **`some_depth_suffices_iff`**: both together.
-/

namespace StructuralTypes

namespace Session

variable {s t : Session} {ty u : TypeId}

/-- The search for the variant of `ty` goes on to `u`. -/
def Descends (s : Session) (ty u : TypeId) : Prop :=
  ∃ base e, s.Opens ty base e ∧ u ∈ e.ty.members

/-- The search for the variant of `ty` goes on to `u`, and nothing is pending for it. -/
def DescendsBare (s : Session) (ty u : TypeId) : Prop :=
  ∃ base e, s.Opens ty base e ∧ e.ty.isRebuilt ∧ u ∈ e.ty.members

/-- The search for the variant of `ty` comes to a map or union that leads to itself with no
structure in between. -/
def LeadsIntoCircle (s : Session) (ty : TypeId) : Prop :=
  ∃ u, Relation.ReflTransGen s.Descends ty u ∧ Relation.TransGen s.DescendsBare u u

theorem DescendsBare.descends (h : s.DescendsBare ty u) : s.Descends ty u := by
  obtain ⟨base, e, ho, -, hm⟩ := h
  exact ⟨base, e, ho, hm⟩

/-- The types that lead to a type on a circle, with no structure in between, lead round among
themselves. -/
theorem traps_of_circle (h : Relation.TransGen s.DescendsBare u u) :
    s.Traps fun x => Relation.TransGen s.DescendsBare x u := by
  intro x hx
  obtain ⟨y, ⟨base, e, ho, hr, hm⟩, hrest⟩ := Relation.TransGen.head'_iff.1 hx
  refine ⟨base, e, ho, hr, y, hm, ?_⟩
  rcases Relation.reflTransGen_iff_eq_or_transGen.1 hrest with rfl | hrest
  · exact h
  · exact hrest

/-- A session that leads the same ways and in which nothing is open for `ty`, or below it, has
closed all that `ty` led to. -/
theorem Closes.of_descends (hc : s.Closes t) (hty : ¬t.Open ty)
    (h : Relation.ReflTransGen s.Descends ty u) : ¬t.Open u := by
  induction h with
  | refl => exact hty
  | tail _ hd ih =>
    obtain ⟨base, e, ho, hm⟩ := hd
    exact hc _ base e ho ih _ hm

/-- The search for the variant of `x` goes on to `y` with nothing changed: `x` is a map or union,
and the members before `y` have their variants at hand. -/
def Next (s : Session) (x y : TypeId) : Prop :=
  ∃ base e pre post, s.Opens x base e ∧ e.ty.isRebuilt ∧ e.ty.members = pre ++ y :: post ∧
    ∀ m ∈ pre, ∃ v, s.AtHand m v

theorem Next.descendsBare {x y : TypeId} (h : s.Next x y) : s.DescendsBare x y := by
  obtain ⟨base, e, pre, post, ho, hr, hsplit, -⟩ := h
  exact ⟨base, e, ho, hr, by simp [hsplit]⟩

/-- How many of the first `n` types are not pending. -/
def free (s : Session) (n : Nat) : Nat :=
  ((Finset.range n).filter fun i => s.pending.get? ⟨i⟩ = none).card

theorem free_le (s : Session) (n : Nat) : s.free n ≤ n := by
  unfold free
  refine (Finset.card_filter_le _ _).trans ?_
  rw [Finset.card_range]

/-- One more pending type is one less that is free. -/
theorem free_insert {n : Nat} {base v : TypeId} (hlt : base.index < n)
    (hbase : s.pending.get? base = none) (ht : t.pending = s.pending.insert base v) :
    t.free n + 1 = s.free n := by
  have hmem : base.index ∈ (Finset.range n).filter fun i => s.pending.get? ⟨i⟩ = none :=
    Finset.mem_filter.2 ⟨Finset.mem_range.2 hlt, hbase⟩
  have herase : (Finset.range n).filter (fun i => t.pending.get? ⟨i⟩ = none) =
      ((Finset.range n).filter fun i => s.pending.get? ⟨i⟩ = none).erase base.index := by
    ext i
    rw [Finset.mem_erase, Finset.mem_filter, Finset.mem_filter, ht, OrderedMap.get?_insert]
    by_cases hi : i = base.index
    · simp [hi]
    · have hne : (⟨i⟩ : TypeId) ≠ base := fun h => hi (congrArg TypeId.index h)
      simp [hi, hne]
  unfold free
  rw [herase, Finset.card_erase_add_one hmem]

end Session

namespace Synth

variable {s₀ s t : Session} {ty₀ ty v : TypeId} {ctx : Context} {n : Nat}

/-- **A type that leads into a circle of maps and unions has no variant**, at any depth. -/
theorem not_gives_of_circle (hcircle : s.LeadsIntoCircle ty) :
    ¬Cloner.Gives (readonlyWithin ctx n) s ty v t := by
  intro h
  obtain ⟨u, hreach, hround⟩ := hcircle
  obtain ⟨hty, hcloses⟩ := gives_closes ctx n h
  obtain ⟨-, htraps⟩ := gives_leavesOpen ctx n h (Session.traps_of_circle hround)
  obtain ⟨base, e, ho, -⟩ := htraps u hround
  exact hcloses.of_descends hty hreach ⟨base, e, ho⟩

/-- The way down to `ty` since the last pending structure: the bases `trail` were met on it. -/
structure OnTrail (s₀ : Session) (ty₀ : TypeId) (trail : List Nat) (ty : TypeId) : Prop where
  /-- The way began at `ty₀`. -/
  reached : Relation.ReflTransGen s₀.Descends ty₀ ty
  /-- No base was met twice. -/
  nodup : trail.Nodup
  /-- From each of them the way led on without a structure. -/
  bare : ∀ i ∈ trail, i < s₀.types.entries.size ∧
    ∃ x e, s₀.Opens x ⟨i⟩ e ∧ Relation.TransGen s₀.DescendsBare x ty

/-- The trail is no longer than the table. -/
theorem OnTrail.length_le {trail : List Nat} (h : OnTrail s₀ ty₀ trail ty) :
    trail.length ≤ s₀.types.entries.size := by
  have hsub : trail ⊆ List.range s₀.types.entries.size :=
    fun i hi => List.mem_range.2 (h.bare i hi).1
  have := h.nodup.length_le_of_subset hsub
  rwa [List.length_range] at this

/-- The trail goes on down a map or union, which cannot have been met on it before. -/
theorem OnTrail.bare_step {trail : List Nat} {base m : TypeId} {e : TypeEntry}
    (h : OnTrail s₀ ty₀ trail ty) (hcircle : ¬s₀.LeadsIntoCircle ty₀) (ho : s₀.Opens ty base e)
    (hr : e.ty.isRebuilt) (hm : m ∈ e.ty.members) : OnTrail s₀ ty₀ (base.index :: trail) m := by
  have hstep : s₀.DescendsBare ty m := ⟨base, e, ho, hr, hm⟩
  refine ⟨h.reached.tail hstep.descends, List.nodup_cons.2 ⟨fun hmem => hcircle ?_, h.nodup⟩, ?_⟩
  · -- a type with the same base leads to `ty`, so `ty` leads to itself
    obtain ⟨-, x, e', hx, hway⟩ := h.bare _ hmem
    obtain ⟨y, ⟨b, d, hx', hr', hy⟩, hrest⟩ := Relation.TransGen.head'_iff.1 hway
    obtain ⟨rfl, rfl⟩ := hx'.unfolds.unique hx.unfolds
    obtain rfl := (hx.unfolds.self.unique ho.unfolds.self).2
    exact ⟨ty, h.reached, .head' ⟨base, _, ho, hr, hy⟩ hrest⟩
  · intro i hi
    rcases List.mem_cons.1 hi with rfl | hi
    · exact ⟨TypeTable.lt_of_find ho.unfolds.found, ty, e, ho, .single hstep⟩
    · obtain ⟨hlt, x, e', hx, hway⟩ := h.bare i hi
      exact ⟨hlt, x, e', hx, hway.tail hstep⟩

/-- The depth that is left is enough for the structures that are not pending, and for the maps and
unions that can be met before the next of them. -/
theorem not_unending_of_depth {trail : List Nat} (hcircle : ¬s₀.LeadsIntoCircle ty₀)
    (hs : s₀.Knows s) (htrail : OnTrail s₀ ty₀ trail ty)
    (hn : s.free s₀.types.entries.size * (s₀.types.entries.size + 1) +
      (s₀.types.entries.size - trail.length) + 1 ≤ n) :
    ¬Cloner.Breaks (readonlyWithin ctx n) s ty .unending t := by
  induction n generalizing s ty trail t with
  | zero => omega
  | succ n ih =>
    intro h
    have hcl := readonlyWithin_keeps ctx n
    rcases stepStops_of_breaks h with ⟨h0, -⟩ | ⟨m, hm, hstep⟩
    · omega
    obtain rfl : n = m := by omega
    have hlen := htrail.length_le
    cases hstep with
    | refused refuses => exact refuses.ne_unending rfl
    | @rebuilding base m e pre post vs _ t' _ opens rebuilt split before breaks =>
      have htrail' := htrail.bare_step hcircle (hs.opens opens) rebuilt (m := m) (by simp [split])
      have hlen' := htrail'.length_le
      obtain ⟨-, hp, -⟩ := before.follows hcl
      have hfree : t'.free s₀.types.entries.size = s.free s₀.types.entries.size := by
        unfold Session.free
        rw [hp]
      refine ih (hs.trans (before.follows hcl).knows) htrail' ?_ breaks
      rw [hfree]
      rw [List.length_cons] at hlen' ⊢
      omega
    | cloning opens structured abandons =>
      cases abandons with
      | early hne => exact hne rfl
      | @late d s₁ u _ _ _ drafts stops =>
        cases stops with
        | work _ _ hindered => exact hindered.1 rfl
        | @call pre post vs m t' _ _ split before breaks =>
          have hopens := hs.opens opens
          have hd := Session.Drafting.of_visits hcl drafts before
          have hbase := (Session.known?_eq_none_iff.1 opens.base_unknown).1
          have hfree := Session.free_insert (TypeTable.lt_of_find hopens.unfolds.found) hbase
            hd.pending
          have htrail' : OnTrail s₀ ty₀ [] m :=
            ⟨htrail.reached.tail ⟨_, _, hopens, by simp [split]⟩, .nil, by simp⟩
          refine ih (hs.trans hd.knows) htrail' ?_ breaks
          rw [← hfree, Nat.succ_mul] at hn
          rw [List.length_nil]
          omega

/-- Where a variant is at hand, nothing changes. -/
theorem eq_of_atHand (hv : s.AtHand ty v) {v' : TypeId}
    (h : Cloner.Gives (readonlyWithin ctx n) s ty v' t) : t = s := by
  obtain ⟨m, -, hstep⟩ := stepsTo_of_gives h
  cases hstep with
  | atHand => rfl
  | rebuilt opens => exact absurd ⟨_, _, opens⟩ hv.not_open
  | cloned opens => exact absurd ⟨_, _, opens⟩ hv.not_open

theorem eq_of_atHand_of_breaks (hv : s.AtHand ty v) {x : Stop}
    (h : Cloner.Breaks (readonlyWithin ctx n) s ty x t) : x = .unending ∧ t = s := by
  rcases stepStops_of_breaks h with ⟨-, hx, ht⟩ | ⟨m, -, hstep⟩
  · exact ⟨hx, ht⟩
  · cases hstep with
    | refused _ _ without => exact absurd hv (without v)
    | rebuilding opens => exact absurd ⟨_, _, opens⟩ hv.not_open
    | cloning opens => exact absurd ⟨_, _, opens⟩ hv.not_open

/-- Members that have their variants at hand are visited with nothing changed. -/
theorem visits_atHand {ms vs : List TypeId} (hms : ∀ m ∈ ms, ∃ v, s.AtHand m v)
    (h : (readonlyWithin ctx n).Visits Eq s ms vs t) : t = s := by
  refine h.invariant (P := fun t => t = s) rfl ?_ ?_
  · rintro m hm v t u rfl hgives
    obtain ⟨w, hw⟩ := hms m hm
    exact eq_of_atHand hw hgives
  · rintro t _ rfl rfl
    rfl

/-- A type from which a circle of such steps can be reached leads into a circle. -/
theorem leadsIntoCircle_of_next {u : TypeId} (hround : Relation.TransGen s.Next u u)
    (hreach : Relation.ReflTransGen s.Next ty u) : s.LeadsIntoCircle ty :=
  ⟨u, Relation.ReflTransGen.mono (fun _ _ h => h.descendsBare.descends) _ _ hreach,
    Relation.TransGen.mono (fun _ _ h => h.descendsBare) _ _ hround⟩

/-- On a circle on which nothing changes, the search stops only for want of depth. -/
theorem breaks_of_circle {u : TypeId} {x : Stop} (hround : Relation.TransGen s.Next u u)
    (hreach : Relation.ReflTransGen s.Next ty u)
    (h : Cloner.Breaks (readonlyWithin ctx n) s ty x t) : x = .unending ∧ t = s := by
  induction n generalizing ty x t with
  | zero =>
    obtain ⟨_, h⟩ := h
    cases h
    exact ⟨rfl, rfl⟩
  | succ n ih =>
    -- the way round goes on from every type on it
    obtain ⟨y, hy, hrest⟩ : ∃ y, s.Next ty y ∧ Relation.ReflTransGen s.Next y u := by
      rcases Relation.ReflTransGen.cases_head hreach with rfl | ⟨y, hy, hrest⟩
      · exact Relation.TransGen.head'_iff.1 hround
      · exact ⟨y, hy, hrest⟩
    obtain ⟨base, e, pre, post, ho, hr, hsplit, hpre⟩ := hy
    rcases stepStops_of_breaks h with ⟨h0, -⟩ | ⟨m, hm, hstep⟩
    · omega
    obtain rfl : n = m := by omega
    cases hstep with
    | refused _ closed => exact absurd ⟨base, e, ho⟩ closed
    | @rebuilding base' m e' pre' post' vs _ t' _ opens rebuilt split before breaks =>
      obtain ⟨rfl, rfl⟩ := opens.unfolds.unique ho.unfolds
      rcases List.append_eq_append_iff.1 (hsplit.symm.trans split) with
        ⟨as, hpre', hpost⟩ | ⟨bs, hpre', hpost⟩
      · cases as with
        | nil =>
          obtain ⟨rfl, rfl⟩ := by simpa using hpost
          rw [List.append_nil] at hpre'
          obtain rfl := visits_atHand (hpre' ▸ hpre) before
          exact ih hrest breaks
        | cons a as =>
          -- `y` would have been visited already
          obtain ⟨rfl, -⟩ := by simpa using hpost
          obtain ⟨vs', w, v', w', hbefore, hgives⟩ := before.before_mem hpre'
          obtain rfl := visits_atHand hpre hbefore
          exact absurd hgives (not_gives_of_circle (leadsIntoCircle_of_next hround hrest))
      · have hall : ∀ m ∈ pre', ∃ v, s.AtHand m v := fun m hm => hpre m (by simp [hpre', hm])
        obtain rfl := visits_atHand hall before
        cases bs with
        | nil =>
          obtain ⟨rfl, rfl⟩ := by simpa using hpost
          exact ih hrest breaks
        | cons b bs =>
          obtain ⟨rfl, -⟩ := by simpa using hpost
          obtain ⟨w, hw⟩ := hpre m (by simp [hpre'])
          exact eq_of_atHand_of_breaks hw breaks
    | cloning opens structured =>
      obtain ⟨rfl, rfl⟩ := opens.unfolds.unique ho.unfolds
      simp [Ty.isRebuilt_eq_false structured] at hr

/-- **A circle on which nothing changes is gone round for ever**, whatever the depth. -/
theorem unending_of_circle {u : TypeId} (hround : Relation.TransGen s.Next u u)
    (hreach : Relation.ReflTransGen s.Next ty u) (n : Nat) (stamp : Stamp) :
    readonlyWithin ctx n stamp ty s = .error .unending s := by
  cases hr : readonlyWithin ctx n stamp ty s with
  | ok v t => exact absurd ⟨stamp, hr⟩ (not_gives_of_circle (leadsIntoCircle_of_next hround hreach))
  | error x t =>
    obtain ⟨rfl, rfl⟩ := breaks_of_circle hround hreach ⟨stamp, hr⟩
    rfl

/-- The operation does not go on for ever. -/
def Returns {α : Type} (x : Synth α) (s : Session) : Prop := ∀ t, x s ≠ .error .unending t

/-- **A type that leads into no circle of maps and unions is searched to the end.** -/
theorem readonlyVariant_returns (ctx : Context) (stamp : Stamp)
    (hcircle : ¬s.LeadsIntoCircle ty) : Returns (readonlyVariant ctx stamp ty) s := by
  intro t h
  have htrail : OnTrail s ty [] ty := ⟨.refl, .nil, by simp⟩
  refine not_unending_of_depth hcircle (.refl s) htrail ?_ ⟨stamp, h⟩
  have := Nat.mul_le_mul_right (s.types.entries.size + 1) (s.free_le s.types.entries.size)
  rw [List.length_nil]
  unfold cloneDepth
  rw [Nat.succ_mul]
  omega

/-- **Some depth suffices** exactly for the types that lead into no circle of maps and unions, and
for those that stop for another reason before they come to one. -/
theorem some_depth_suffices_iff (ctx : Context) (stamp : Stamp) (s : Session) (ty : TypeId) :
    (∃ n, Returns (readonlyWithin ctx n stamp ty) s) ↔
      ¬s.LeadsIntoCircle ty ∨
        ∃ n x t, x ≠ .unending ∧ readonlyWithin ctx n stamp ty s = .error x t := by
  constructor
  · rintro ⟨n, hn⟩
    by_cases hcircle : s.LeadsIntoCircle ty
    · right
      cases hr : readonlyWithin ctx n stamp ty s with
      | ok v t => exact absurd ⟨stamp, hr⟩ (not_gives_of_circle hcircle)
      | error x t =>
        refine ⟨n, x, t, ?_, hr⟩
        rintro rfl
        exact hn t hr
    · exact .inl hcircle
  · rintro (hcircle | ⟨n, x, t, hx, hr⟩)
    · exact ⟨cloneDepth s.types.entries.size,
        fun t ht => readonlyVariant_returns ctx stamp hcircle t ht⟩
    · refine ⟨n, fun u hu => ?_⟩
      rw [hr] at hu
      cases hu
      exact hx rfl

/-- A session in which the last type is a union of `int` and itself. -/
def unionOfItself : Session where
  symbols := .mk #[] #[]
  types := (TypeTable.initial.add { ty := .union [Builtin.int, ⟨14⟩] }).2
  names := {}
  package := { id := ⟨0⟩, name := "app" }

theorem unionOfItself_next : unionOfItself.Next ⟨14⟩ ⟨14⟩ := by
  have hopens : unionOfItself.Opens ⟨14⟩ ⟨14⟩ { ty := .union [Builtin.int, ⟨14⟩] } :=
    { unfolds :=
        { writable := rfl, implied := rfl, found := rfl, base_writable := rfl, clonable := rfl }
      unknown := rfl
      base_unknown := rfl }
  refine ⟨⟨14⟩, _, [Builtin.int], [], hopens, rfl, rfl, fun m hm => ?_⟩
  obtain rfl := List.mem_singleton.1 hm
  exact ⟨Builtin.int, .readonly rfl rfl⟩

/-- No depth suffices for a union of `int` and itself. -/
theorem unionOfItself_unending :
    ¬∃ n, Returns (readonlyWithin ⟨{}, ⟨0⟩⟩ n ⟨{}, ⟨0⟩, ⟨0⟩⟩ ⟨14⟩) unionOfItself := by
  rintro ⟨n, hn⟩
  exact hn _ (unending_of_circle (.single unionOfItself_next) .refl n _)

end Synth

end StructuralTypes
