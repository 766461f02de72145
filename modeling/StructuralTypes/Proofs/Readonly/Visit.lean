import StructuralTypes.Proofs.Readonly.Descent

/-!
# Visits

To make a variant, a cloner is called for one member after the other, and between the calls other
work may be done. `Visits cl W s ms vs t` says that this has led from `s` to `t`: the members `ms`
had the variants `vs`, and the other work is of the kind `W`. `Stops` says that it was broken off.

Results:
* **`Visits.invariant`**: what every call and all other work keeps, the visits keep.
* `Visits.forall_members`: what every call brings about, and all that follows keeps, holds in the
  end.
-/

namespace StructuralTypes

namespace Cloner

variable {cl : Cloner} {W : Session → Session → Prop} {s t u : Session} {m v : TypeId}
  {ms vs : List TypeId} {x : Stop}

/-- Called in `s`, the cloner gives `v` for `ty` and leaves `t`. -/
def Gives (cl : Cloner) (s : Session) (ty v : TypeId) (t : Session) : Prop :=
  ∃ stamp, cl stamp ty s = .ok v t

/-- Called in `s`, the cloner stops on `ty` with `x` and leaves `t`. -/
def Breaks (cl : Cloner) (s : Session) (ty : TypeId) (x : Stop) (t : Session) : Prop :=
  ∃ stamp, cl stamp ty s = .error x t

/-- Called in `s`, the cloner leaves `t`, whether it gives a variant for `ty` or stops. -/
def Leads (cl : Cloner) (s : Session) (ty : TypeId) (t : Session) : Prop :=
  (∃ v, cl.Gives s ty v t) ∨ ∃ x, cl.Breaks s ty x t

/-- Whether the cloner gives a variant or stops, it leaves a session that follows. -/
structure Keeps (cl : Cloner) : Prop where
  /-- When it gives a variant. -/
  gives : ∀ {s ty v t}, cl.Gives s ty v t → s.Follows t
  /-- When it stops. -/
  breaks : ∀ {s ty x t}, cl.Breaks s ty x t → s.Follows t

theorem Keeps.leads (h : cl.Keeps) {ty : TypeId} (hl : cl.Leads s ty t) : s.Follows t :=
  hl.elim (fun ⟨_, hv⟩ => h.gives hv) fun ⟨_, hx⟩ => h.breaks hx

/-- Calls for the members `ms`, which gave `vs`, with other work in between, led from `s` to the
session at the end. -/
inductive Visits (cl : Cloner) (W : Session → Session → Prop) (s : Session) :
    List TypeId → List TypeId → Session → Prop
  /-- Nothing is done yet. -/
  | start : Visits cl W s [] [] s
  /-- One more member. -/
  | visit {ms vs : List TypeId} {t : Session} {m v : TypeId} {u : Session}
      (before : Visits cl W s ms vs t) (gives : cl.Gives t m v u) :
      Visits cl W s (ms ++ [m]) (vs ++ [v]) u
  /-- Some other work. -/
  | work {ms vs : List TypeId} {t u : Session} (before : Visits cl W s ms vs t) (work : W t u) :
      Visits cl W s ms vs u

/-- The calls for the members `ms`, which had given `vs`, were broken off with `x`: by a call, or
because the other work was hindered, as `H` tells. -/
inductive Stops (cl : Cloner) (W : Session → Session → Prop)
    (H : List TypeId → Stop → Session → Prop) (s : Session) (ms : List TypeId) :
    List TypeId → Stop → Session → Prop
  /-- A call stopped. -/
  | call {pre post vs : List TypeId} {m : TypeId} {t : Session} {x : Stop} {u : Session}
      (split : ms = pre ++ m :: post) (before : Visits cl W s pre vs t)
      (breaks : cl.Breaks t m x u) : Stops cl W H s ms vs x u
  /-- The other work stopped. -/
  | work {pre vs : List TypeId} {t : Session} {x : Stop} (part : pre <+: ms)
      (before : Visits cl W s pre vs t) (hindered : H vs x t) : Stops cl W H s ms vs x t

/-- Every member has a variant. -/
theorem Visits.length_eq (h : Visits cl W s ms vs t) : vs.length = ms.length := by
  induction h with
  | start => rfl
  | visit _ _ ih => rw [List.length_append, List.length_append, ih]; rfl
  | work _ _ ih => exact ih

/-- When a member was visited, those before it had been. -/
theorem Visits.before_mem (h : Visits cl W s ms vs t) {pre post : List TypeId}
    (hms : ms = pre ++ m :: post) :
    ∃ vs' u v w, Visits cl W s pre vs' u ∧ cl.Gives u m v w := by
  induction h generalizing post with
  | start => simp at hms
  | @visit ms vs t m' v u before gives ih =>
    rcases List.eq_nil_or_concat post with rfl | ⟨post', y, rfl⟩
    · obtain ⟨rfl, rfl⟩ := by simpa using hms
      exact ⟨vs, t, v, u, before, gives⟩
    · rw [List.concat_eq_append, ← List.cons_append, ← List.append_assoc] at hms
      exact ih (List.append_inj_left' hms rfl)
  | work _ _ ih => exact ih hms

/-- **What every call and all other work keeps, the visits keep.** -/
theorem Visits.invariant {P : Session → Prop} (h : Visits cl W s ms vs t) (hs : P s)
    (visit : ∀ m ∈ ms, ∀ v t u, P t → cl.Gives t m v u → P u)
    (work : ∀ t u, P t → W t u → P u) : P t := by
  induction h with
  | start => exact hs
  | visit _ gives ih =>
    exact visit _ (by simp) _ _ _ (ih fun m hm => visit m (List.mem_append_left _ hm)) gives
  | work _ hW ih => exact work _ _ (ih visit) hW

/-- What a call brings about for its member, and what is kept, holds for all members in the end. -/
theorem Visits.forall_members {P : Session → Prop} {R : TypeId → Session → Prop}
    (h : Visits cl W s ms vs t) (hs : P s)
    (visit : ∀ m v t u, P t → cl.Gives t m v u → P u ∧ R m u ∧ ∀ m', R m' t → R m' u)
    (work : ∀ t u, P t → W t u → P u ∧ ∀ m', R m' t → R m' u) : P t ∧ ∀ m ∈ ms, R m t := by
  induction h with
  | start => exact ⟨hs, by simp⟩
  | @visit ms vs t m v u _ gives ih =>
    obtain ⟨ht, hR⟩ := ih
    obtain ⟨hu, hm, hstay⟩ := visit m v t u ht gives
    refine ⟨hu, fun m' hm' => ?_⟩
    rcases List.mem_append.1 hm' with hm' | hm'
    · exact hstay m' (hR m' hm')
    · exact List.mem_singleton.1 hm' ▸ hm
  | work _ hW ih =>
    obtain ⟨ht, hR⟩ := ih
    obtain ⟨hu, hstay⟩ := work _ _ ht hW
    exact ⟨hu, fun m' hm' => hstay m' (hR m' hm')⟩

end Cloner

end StructuralTypes
