import Mathlib.Data.List.Induction
import Mathlib.Tactic.TFAE
import StructuralTypes.Proofs.Readonly.Sharing

/-!
# What a failure leaves visible

A request that fails keeps what it has done. Types that were finished on the way stay remembered,
and stay defined, although they may be made of the clone of a structure that was not finished. Such
a clone can then be seen from outside. It is the only way: what is visible is complete as long as,
for every type that is remembered, all that its variant is made of is remembered.

Results:
* `Traced.visibleComplete`: all that is visible is complete if no clone is unfinished.
* `Traced.memoClosed_of_visibleDefined`: what was left behind is visible if it is needed.
* `Traced.forget`: what was left behind can be forgotten if it is not needed.
* **`visibleComplete_tfae`**: after each of a series of requests, all this comes to the same.
-/

namespace StructuralTypes

namespace Compilation

variable {slots : CloneSlots} {c c₀ c' : Compilation} {T : TypeTable}
  {Abandoned Unfinished : TypeId → Prop}
  {P : TypeId → TypeId → Prop} {r : CloneRequest} {rs : List CloneRequest} {v : TypeId}
  {e : TypeEntry}

/-! ## Requests that may fail -/

/-- What there is after a request, whether it is answered or not. -/
def attempt (slots : CloneSlots) (c : Compilation) (r : CloneRequest) : Compilation :=
  match request slots r c with
  | .ok _ c' => c'
  | .error _ c' => c'

/-- What there is after some requests. -/
def attempts (slots : CloneSlots) (rs : List CloneRequest) (c : Compilation) : Compilation :=
  rs.foldl (attempt slots) c

theorem attempts_append_singleton (slots : CloneSlots) (rs : List CloneRequest) (r : CloneRequest)
    (c : Compilation) : attempts slots (rs ++ [r]) c = attempt slots (attempts slots rs c) r :=
  List.foldl_append

/-- The type can be reached, through the members of types, from a variant that is remembered or
from a type that is defined. -/
inductive Visible (slots : CloneSlots) (c : Compilation) : TypeId → Prop
  /-- It is remembered as a variant. -/
  | remembered {k v : TypeId} (found : (c.memo slots.memo).get? k = some v) : Visible slots c v
  /-- It is the type of a definition. -/
  | defined {p : Package} {d : TypeDefinition} {v : TypeId} (package : p ∈ c.packages)
      (definition : d ∈ p.typeDefinitions) (ty : d.ty = some v) : Visible slots c v
  /-- It is a member of a type that can be reached. -/
  | member {v m : TypeId} {e : TypeEntry} (parent : Visible slots c v)
      (found : c.types.find v = .ok e) (member : m ∈ e.ty.members) : Visible slots c m

/-- The symbol of the type has a definition. -/
def Defined (c : Compilation) (v : TypeId) : Prop :=
  ∃ e x, c.types.find v = .ok e ∧ e.symbol = some x ∧ c.Defines x

/-- The clone `v` is finished: it is the variant of a type of `c₀`, with a field for each of its
fields, and it is defined. -/
def Complete (slots : CloneSlots) (c₀ c : Compilation) (v : TypeId) : Prop :=
  c.Defined v ∧ ∃ base e e', (c.memo slots.memo).get? base = some v ∧
    c₀.types.find base = .ok e ∧ c.types.find v = .ok e' ∧
      e'.ty.fields?.map (·.values.map (·.name)) = e.ty.fields?.map (·.values.map (·.name))

/-- The structure `v` was added to `c₀` and is visible. -/
structure Exposed (slots : CloneSlots) (c₀ c : Compilation) (v : TypeId) : Prop where
  /-- It is visible. -/
  visible : Visible slots c v
  /-- It was added. -/
  added : c₀.types.entries.size ≤ v.index
  /-- It is a structure. -/
  structured : ∃ e, c.types.find v = .ok e ∧ e.ty.structureKind?.isSome

/-- Every clone of a structure that is visible is complete. -/
def VisibleComplete (slots : CloneSlots) (c₀ c : Compilation) : Prop :=
  ∀ v, Exposed slots c₀ c v → Complete slots c₀ c v

/-- Every clone of a structure that is visible is defined at least. -/
def VisibleDefined (slots : CloneSlots) (c₀ c : Compilation) : Prop :=
  ∀ v, Exposed slots c₀ c v → c.Defined v

theorem VisibleComplete.defined (h : VisibleComplete slots c₀ c) : VisibleDefined slots c₀ c :=
  fun v hv => (h v hv).1

/-- All clones that a remembered variant is made of are remembered. -/
def MemoClosed (slots : CloneSlots) (c₀ c : Compilation) : Prop :=
  ∀ k v base e, (c.memo slots.memo).get? k = some v → c₀.types.Unfolds k base e →
    ∀ m ∈ e.ty.members, ∀ b d, c₀.types.Unfolds m b d → (c.memo slots.memo).get? b ≠ none

/-! ## When no clone is unfinished -/

/-- What is visible was there or is known. -/
theorem Traced.known_of_visible (hc : c₀.InRange)
    (h : Traced slots c₀.types Abandoned (fun _ => False) P c) (hv : Visible slots c v) :
    v.index < c₀.types.entries.size ∨ ∃ b, P b v := by
  induction hv with
  | remembered found =>
    obtain ⟨-, b, e, -, hP⟩ := h.clones.memo found
    exact .inr ⟨b, hP⟩
  | defined package definition ty =>
    exact (h.definitions _ package _ definition _ ty).imp_right fun ⟨b, hP, _⟩ => ⟨b, hP⟩
  | @member v m e parent found member ih =>
    rcases ih with hlt | ⟨b, hP⟩
    · have hold : c₀.types.find v = .ok e := TypeTable.Grows.find_of_lt h.clones.grows found hlt
      exact .inl (hc.types v e hold m (.inl member))
    · obtain ⟨-, d, hd⟩ := h.clones.source hP
      rcases (h.clones.finished hP id hd found).mirrors.back member with
        rfl | ⟨k, hk, ⟨rfl, -⟩ | ⟨base, d', -, hPm⟩⟩
      · exact .inl (Nat.lt_of_lt_of_le (by decide) hc.builtins)
      · exact .inl (hc.types b d hd.found m (.inl hk))
      · exact .inr ⟨base, hPm⟩

/-- If no clone is unfinished, all that is visible is complete. -/
theorem Traced.visibleComplete (hc : c₀.InRange)
    (h : Traced slots c₀.types Abandoned (fun _ => False) P c) : VisibleComplete slots c₀ c := by
  rintro v ⟨hv, hle, e', he', hs⟩
  rcases h.known_of_visible hc hv with hlt | ⟨b, hP⟩
  · exact absurd hlt (Nat.not_lt_of_le hle)
  obtain ⟨-, e, he⟩ := h.clones.source hP
  have hf := h.clones.finished hP id he he'
  have hs' : e.ty.structureKind?.isSome := hf.mirrors.structureKind?_eq ▸ hs
  refine ⟨?_, b, e, e', hf.sole ?_, he.found, he', hf.mirrors.fields_names⟩
  · obtain ⟨x, hx, hr⟩ := hf.registered hs'
    refine ⟨e', x, he', hx, hr.elim id ?_⟩
    rintro ⟨d, hd, -⟩
    simp [bare, Compilation.session] at hd
  · rintro ⟨d, hd, hr, -⟩
    obtain rfl := (hd.unique he).2
    simp [Ty.isRebuilt_eq_false hs'] at hr

/-- If no clone is unfinished, all that is needed is remembered. -/
theorem Traced.memoClosed (h : Traced slots c₀.types Abandoned (fun _ => False) P c) :
    MemoClosed slots c₀ c := by
  intro k v base e hk hu m hm b d hb
  obtain ⟨-, base', e', hu', hP⟩ := h.clones.memo hk
  obtain ⟨rfl, rfl⟩ := hu.unique hu'
  obtain ⟨e', he', -⟩ := h.clones.clone hP hu.self
  obtain ⟨w, -, hw⟩ := (h.clones.finished hP id hu.self he').mirrors.forth hm hb.not_failed
  have hPw := hw.of_unfolds hb
  obtain ⟨d', hd', -⟩ := h.clones.clone hPw hb.self
  exact (h.clones.finished hPw id hb.self hd').remembered

/-! ## After a failure -/

section

variable {Unfinished' : TypeId → Prop} {P' : TypeId → TypeId → Prop}
  (h : Traced slots c₀.types Abandoned Unfinished' P' c')
  (hl : ∀ x, Unfinished' x → LeftBehind slots c₀.types P' c' x)

include h hl

/-- What was left behind has no variant. -/
theorem Traced.not_remembered {b : TypeId} (hP : P' b v) (hunfinished : Unfinished' v) :
    (c'.memo slots.memo).get? b = none := by
  obtain ⟨b', e, hP', -, -, hnone⟩ := (hl v hunfinished).source
  obtain rfl := h.clones.unique hP hP'
  exact hnone

/-- What was left behind is a structure. -/
theorem Traced.structured (hunfinished : Unfinished' v) :
    ∃ e', c'.types.find v = .ok e' ∧ e'.ty.structureKind?.isSome := by
  obtain ⟨b, e, hP, hb, hs, -⟩ := (hl v hunfinished).source
  obtain ⟨d, hd, -, -, hk⟩ := h.clones.clone hP hb
  exact ⟨d, hd, hk ▸ hs⟩

/-- **If all that is visible is defined, all that is needed is remembered**: a clone that was left
behind would be visible. -/
theorem Traced.memoClosed_of_visibleDefined (hn : VisibleDefined slots c₀ c') :
    MemoClosed slots c₀ c' := by
  intro k v base e hk hu m hm b d hb
  obtain ⟨hunfinished, base', e', hu', hP⟩ := h.clones.memo hk
  obtain ⟨rfl, rfl⟩ := hu.unique hu'
  obtain ⟨e', he', -⟩ := h.clones.clone hP hu.self
  obtain ⟨w, hw, hmw⟩ :=
    (h.clones.finished hP hunfinished hu.self he').mirrors.forth hm hb.not_failed
  have hPw := hmw.of_unfolds hb
  obtain ⟨d', hd', -⟩ := h.clones.clone hPw hb.self
  by_cases hrawm : Unfinished' w
  · have hexposed : Exposed slots c₀ c' w :=
      ⟨.member (.remembered hk) he' hw, (h.clones.source hPw).1, h.structured hl hrawm⟩
    obtain ⟨d, x, hd, hx, hdef⟩ := hn w hexposed
    exact absurd hdef ((hl w hrawm).undefined d x hd hx)
  · exact (h.clones.finished hPw hrawm hb.self hd').remembered

/-- **If all that is needed is remembered, what was left behind can be forgotten**: no finished
clone is made of it. -/
theorem Traced.forget (hm : MemoClosed slots c₀ c') :
    Traced slots c₀.types (fun x => Abandoned x ∨ Unfinished' x) (fun _ => False)
      (fun b x => P' b x ∧ ¬Unfinished' x) c' where
  clones := by
    refine h.clones.forget h.idle fun {b x e} _ _ he hremembered m hmem b' d w hb' hPw
      hunfinished => ?_
    obtain ⟨v, hv⟩ := Option.ne_none_iff_exists'.1 hremembered
    exact hm b v b e hv he m hmem b' d hb' (h.not_remembered hl hPw hunfinished)
  idle := h.idle
  definitions p hp d hd ty hty :=
    (h.definitions p hp d hd ty hty).imp_right
      fun ⟨b, hP, hunfinished⟩ => ⟨b, ⟨hP, hunfinished⟩, id⟩
  symbols := h.symbols

end

/-! ## After each request -/

/-- As long as nothing that is visible lacks a definition after any request, or all that is needed
is remembered, no clone is unfinished. -/
theorem Traced.attempts (h : Traced slots c₀.types Abandoned (fun _ => False) P c)
    (hc : c₀.types.Closed) (rs : List CloneRequest)
    (hall : ∀ pre, pre <+: rs → VisibleDefined slots c₀ (attempts slots pre c) ∨
      MemoClosed slots c₀ (attempts slots pre c)) :
    ∃ Abandoned' P',
      Traced slots c₀.types Abandoned' (fun _ => False) P' (attempts slots rs c) := by
  induction rs using List.reverseRecOn with
  | nil => exact ⟨Abandoned, P, h⟩
  | append_singleton rs r ih =>
    obtain ⟨Abandoned₁, P₁, h₁⟩ := ih fun pre hpre =>
      hall pre (hpre.trans (List.prefix_append rs [r]))
    have hlast := hall (rs ++ [r]) List.prefix_rfl
    rw [attempts_append_singleton] at hlast ⊢
    unfold attempt at hlast ⊢
    cases hr : request slots r (Compilation.attempts slots rs c) with
    | ok v c' =>
      obtain ⟨P', -, h', -⟩ := h₁.ok hc hr
      exact ⟨Abandoned₁, P', h'⟩
    | error x c' =>
      rw [hr] at hlast
      obtain ⟨Unfinished', P', h', -, hl⟩ := h₁.error hc hr
      have hl' : ∀ x, Unfinished' x → LeftBehind slots c₀.types P' c' x :=
        fun x hx => (hl x hx).resolve_left id
      have hmemo : MemoClosed slots c₀ c' := hlast.elim (h'.memoClosed_of_visibleDefined hl') id
      exact ⟨_, _, h'.forget hl' hmemo⟩

/-- **After each of a series of requests the following come to the same**: all clones of structures
that are visible are complete; they are defined at least; all that remembered variants are made of
is remembered. No clone is known at the beginning. -/
theorem visibleComplete_tfae (c : Compilation) (slots : CloneSlots) (rs : List CloneRequest)
    (hc : c.InRange) (hmemo : c.memo slots.memo = ∅) (hpending : c.pending slots.pending = ∅) :
    List.TFAE [∀ pre, pre <+: rs → VisibleComplete slots c (attempts slots pre c),
      ∀ pre, pre <+: rs → VisibleDefined slots c (attempts slots pre c),
      ∀ pre, pre <+: rs → MemoClosed slots c (attempts slots pre c)] := by
  have hstart := Traced.start hc hmemo hpending
  tfae_have 1 → 2 := fun h pre hpre => (h pre hpre).defined
  tfae_have 2 → 3 := by
    intro h pre hpre
    obtain ⟨Abandoned, P, htraced⟩ := hstart.attempts hc.types pre fun p hp =>
      .inl (h p (hp.trans hpre))
    exact htraced.memoClosed
  tfae_have 3 → 1 := by
    intro h pre hpre
    obtain ⟨Abandoned, P, htraced⟩ := hstart.attempts hc.types pre fun p hp =>
      .inr (h p (hp.trans hpre))
    exact htraced.visibleComplete hc
  tfae_finish

/-- So it is for two requests to `linked`. -/
theorem linked_visibleComplete_tfae :
    List.TFAE [
      ∀ pre, pre <+: [appRequest ⟨14⟩, appRequest ⟨15⟩] →
        VisibleComplete {} linked (attempts {} pre linked),
      ∀ pre, pre <+: [appRequest ⟨14⟩, appRequest ⟨15⟩] →
        VisibleDefined {} linked (attempts {} pre linked),
      ∀ pre, pre <+: [appRequest ⟨14⟩, appRequest ⟨15⟩] →
        MemoClosed {} linked (attempts {} pre linked)] :=
  visibleComplete_tfae linked {} _ (inRange_app (by decide)) rfl rfl

/-- A record with a field for a record that has a field for it, and another field that has no
variant. -/
def broken : Compilation :=
  app [("A", ⟨14⟩), ("B", ⟨15⟩)]
    [appRecord ⟨1⟩ [("b", ⟨15⟩), ("bad", Builtin.errorDetail)], appRecord ⟨2⟩ [("a", ⟨14⟩)]]

/-- The inner record is remembered, and its clone is made of the clone of the outer one, which has
no fields and no definition. -/
theorem broken_partial :
    (∃ v e, Exposed {} broken (attempts {} [appRequest ⟨14⟩] broken) v ∧
      (attempts {} [appRequest ⟨14⟩] broken).types.find v = .ok e ∧ e.ty = .record {} ∧
        ¬(attempts {} [appRequest ⟨14⟩] broken).Defined v) ∧
      ¬∀ pre, pre <+: [appRequest ⟨14⟩] → VisibleComplete {} broken (attempts {} pre broken) := by
  obtain ⟨c', hc'⟩ : ∃ c', c' = attempts {} [appRequest ⟨14⟩] broken := ⟨_, rfl⟩
  have hmemo : (c'.memo ({} : CloneSlots).memo).get? ⟨15⟩ = some ⟨17⟩ := by
    rw [hc']
    decide +kernel
  have hinner : (c'.types.entries[17]?).map (·.ty.members) = some [⟨16⟩] := by
    rw [hc']
    decide +kernel
  have houter : (c'.types.entries[16]?).map (fun e => (e.ty, e.symbol)) =
      some (.record {}, some ⟨3⟩) := by
    rw [hc']
    decide +kernel
  have hundefined : ¬c'.Defines ⟨3⟩ := by
    rw [hc']
    decide +kernel
  have hsize : broken.types.entries.size ≤ (⟨16⟩ : TypeId).index := by
    decide +kernel
  obtain ⟨e, he, hmembers⟩ := Option.map_eq_some_iff.1 hinner
  obtain ⟨e', he', houter⟩ := Option.map_eq_some_iff.1 houter
  obtain ⟨hrecord, hsymbol⟩ := Prod.mk.inj houter
  have hv : c'.types.find ⟨17⟩ = .ok e := TypeTable.find_eq_ok_iff.2 he
  have hw : c'.types.find ⟨16⟩ = .ok e' := TypeTable.find_eq_ok_iff.2 he'
  have hexposed : Exposed {} broken c' ⟨16⟩ := by
    refine ⟨.member (.remembered hmemo) hv (by simp [hmembers]), hsize, e', hw, ?_⟩
    simp [hrecord, Ty.structureKind?]
  have hnot : ¬c'.Defined ⟨16⟩ := by
    rintro ⟨d, x, hd, hx, hdef⟩
    obtain rfl := Except.ok.inj (hw.symm.trans hd)
    obtain rfl := Option.some.inj (hsymbol.symm.trans hx)
    exact hundefined hdef
  rw [← hc']
  refine ⟨⟨⟨16⟩, e', hexposed, hw, hrecord, hnot⟩, fun h => ?_⟩
  have hcomplete : VisibleComplete {} broken c' := hc' ▸ h _ List.prefix_rfl
  exact hnot (hcomplete _ hexposed).1

end Compilation

end StructuralTypes
