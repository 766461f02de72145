import Mathlib.Data.List.Nodup
import StructuralTypes.Proofs.Readonly.Wiring

/-!
# What a search registers

`Registered suffix q s made t` says what is new in the session `t` that was not in `s`: the clones
`made`, in the order of their definitions. Each is the clone of a structure that had no known
variant before and is remembered for it, and all its parts are there. No other structure has got a
variant.

Results:
* `Numbered.trans`, `Numbered.snoc`: made-up names show different numbers.
* **`Registered.trans`**: two searches in a row.
* `Registered.aside`: work at a clone that is older registers nothing.
-/

namespace StructuralTypes

/-! ## Made-up names -/

/-- The clones were requested for the package `q`. The numbers in their names are different, and
were handed out in between. -/
structure Numbered (q : PackageId) (before : NameSupply) (made : List Wiring)
    (after : NameSupply) : Prop where
  /-- The package of the clones' symbols. -/
  requested : ∀ w ∈ made, w.stamp.package = q
  /-- No number is handed out again. -/
  counts : ∀ p, before.count .anonymousType p ≤ after.count .anonymousType p
  /-- The numbers are new. -/
  range : ∀ w ∈ made, ∀ n, w.number = some n →
    before.count .anonymousType q ≤ n ∧ n < after.count .anonymousType q
  /-- The numbers are different. -/
  distinct : (made.filterMap (·.number)).Nodup

namespace Numbered

variable {q : PackageId} {a b c : NameSupply} {made made' : List Wiring}

theorem refl (q : PackageId) (a : NameSupply) : Numbered q a [] a where
  requested := by simp
  counts _ := Nat.le_refl _
  range := by simp
  distinct := .nil

theorem trans (h : Numbered q a made b) (h' : Numbered q b made' c) :
    Numbered q a (made ++ made') c where
  requested w hw := (List.mem_append.1 hw).elim (h.requested w) (h'.requested w)
  counts p := Nat.le_trans (h.counts p) (h'.counts p)
  range w hw n hn := by
    rcases List.mem_append.1 hw with hw | hw
    · exact (h.range w hw n hn).imp_right fun hlt => Nat.lt_of_lt_of_le hlt (h'.counts q)
    · exact (h'.range w hw n hn).imp_left (Nat.le_trans (h.counts q))
  distinct := by
    rw [List.filterMap_append]
    refine h.distinct.append h'.distinct fun n hn hn' => ?_
    obtain ⟨w, hw, hwn⟩ := List.mem_filterMap.1 hn
    obtain ⟨w', hw', hwn'⟩ := List.mem_filterMap.1 hn'
    exact absurd (h.range w hw n hwn).2 (Nat.not_lt_of_le (h'.range w' hw' n hwn').1)

/-- The clone that is named first is registered last. -/
theorem snoc {w : Wiring} (hcounts : ∀ p, a.count .anonymousType p ≤ b.count .anonymousType p)
    (hnumber : ∀ n, w.number = some n →
      a.count .anonymousType q = n ∧ n < b.count .anonymousType q)
    (hw : w.stamp.package = q) (h : Numbered q b made c) : Numbered q a (made ++ [w]) c where
  requested w' hw' := by
    rcases List.mem_append.1 hw' with hw' | hw'
    · exact h.requested w' hw'
    · exact List.mem_singleton.1 hw' ▸ hw
  counts p := Nat.le_trans (hcounts p) (h.counts p)
  range w' hw' n hn := by
    rcases List.mem_append.1 hw' with hw' | hw'
    · exact (h.range w' hw' n hn).imp_left (Nat.le_trans (hcounts q))
    · rw [List.mem_singleton.1 hw'] at hn
      obtain ⟨hle, hlt⟩ := hnumber n hn
      exact ⟨Nat.le_of_eq hle, Nat.lt_of_lt_of_le hlt (h.counts q)⟩
  distinct := by
    rw [List.filterMap_append]
    refine h.distinct.append ?_ fun n hn hn' => ?_
    · cases hn : w.number <;> simp [hn]
    · obtain ⟨w', hw', hwn'⟩ := List.mem_filterMap.1 hn
      have hwn : w.number = some n := by simpa using hn'
      exact absurd (hnumber n hwn).2 (Nat.not_lt_of_le (h.range w' hw' n hwn').1)

end Numbered

/-! ## Clones that were made -/

/-- The session `t` has the clones `made` that `s` did not have. -/
structure Registered (suffix : String) (q : PackageId) (s : Session) (made : List Wiring)
    (t : Session) : Prop where
  /-- The definitions of the clones were registered, and nothing else. -/
  package : t.package =
    { s.package with typeDefinitions := s.package.typeDefinitions ++ made.map (·.definition) }
  /-- The same clones are pending. -/
  pending : t.pending = s.pending
  /-- What was remembered is remembered. -/
  memo : ∀ k v, s.memo.get? k = some v → t.memo.get? k = some v
  /-- No structure was cloned twice. -/
  distinct : (made.map (·.source)).Nodup
  /-- Each clone has its own symbol. -/
  holders : (made.map (·.holder)).Nodup
  /-- No variant was known. -/
  unknown : ∀ w ∈ made, s.known? w.source = none
  /-- The clone is remembered. -/
  remembered : ∀ w ∈ made, t.memo.get? w.source = some w.clone
  /-- Among structures, nothing else is remembered. -/
  complete : ∀ k v, t.memo.get? k = some v → s.memo.get? k = none →
    k ∈ made.map (·.source) ∨ ∃ e, t.types.find k = .ok e ∧ e.ty.structureKind? = none
  /-- All that belongs to the clones is there. -/
  stands : ∀ w ∈ made, w.Stands suffix t.symbols t.types
  /-- Packages are named as imported. -/
  qualified : ∀ w ∈ made, w.qualifier = s.package.qualifierFor none w.named.package
  /-- The clones, their symbols and scopes are new. -/
  new : ∀ w ∈ made, s.types.entries.size ≤ w.clone.index ∧
    s.symbols.symbols.size ≤ w.holder.index ∧ s.symbols.scopes.size ≤ w.scope.index
  /-- Nothing is removed. -/
  sizes : s.types.entries.size ≤ t.types.entries.size ∧
    s.symbols.symbols.size ≤ t.symbols.symbols.size ∧ s.symbols.scopes.size ≤ t.symbols.scopes.size
  /-- Their names are new. -/
  numbered : Numbered q s.names made t.names

namespace Registered

variable {suffix : String} {q : PackageId} {s t u : Session} {made made' : List Wiring}
  {o : Outline}

theorem refl (suffix : String) (q : PackageId) (s : Session) : Registered suffix q s [] s where
  package := by simp
  pending := rfl
  memo _ _ h := h
  distinct := .nil
  holders := .nil
  unknown := by simp
  remembered := by simp
  complete k v hk hnone := by simp [hnone] at hk
  stands := by simp
  qualified := by simp
  new := by simp
  sizes := ⟨Nat.le_refl _, Nat.le_refl _, Nat.le_refl _⟩
  numbered := .refl q s.names

/-- What was not known later was not known before. -/
theorem known?_eq_none (h : Registered suffix q s made t) {k : TypeId} (hk : t.known? k = none) :
    s.known? k = none := by
  obtain ⟨hpending, hmemo⟩ := Session.known?_eq_none_iff.1 hk
  refine Session.known?_eq_none_iff.2 ⟨h.pending ▸ hpending, ?_⟩
  rw [Option.eq_none_iff_forall_ne_some]
  intro v hv
  simp [h.memo k v hv] at hmemo

/-- **Two searches in a row.** -/
theorem trans (h : Registered suffix q s made t) (h' : Registered suffix q t made' u)
    (hx : t.Extends u) : Registered suffix q s (made ++ made') u where
  package := by
    rw [h'.package, h.package]
    simp
  pending := h'.pending.trans h.pending
  memo k v hk := h'.memo k v (h.memo k v hk)
  distinct := by
    rw [List.map_append]
    refine h.distinct.append h'.distinct fun k hk hk' => ?_
    obtain ⟨w, hw, rfl⟩ := List.mem_map.1 hk
    obtain ⟨w', hw', heq⟩ := List.mem_map.1 hk'
    have hnone := (Session.known?_eq_none_iff.1 (h'.unknown w' hw')).2
    rw [heq, h.remembered w hw] at hnone
    cases hnone
  holders := by
    rw [List.map_append]
    refine h.holders.append h'.holders fun x hx hx' => ?_
    obtain ⟨w, hw, rfl⟩ := List.mem_map.1 hx
    obtain ⟨w', hw', heq⟩ := List.mem_map.1 hx'
    have hle := (h'.new w' hw').2.1
    rw [heq] at hle
    exact absurd (h.stands w hw).lt_size (Nat.not_lt_of_le hle)
  unknown w hw := by
    rcases List.mem_append.1 hw with hw | hw
    · exact h.unknown w hw
    · exact h.known?_eq_none (h'.unknown w hw)
  remembered w hw := by
    rcases List.mem_append.1 hw with hw | hw
    · exact h'.memo _ _ (h.remembered w hw)
    · exact h'.remembered w hw
  complete k v hk hnone := by
    rw [List.map_append]
    cases hmid : t.memo.get? k with
    | none => exact (h'.complete k v hk hmid).imp_left (List.mem_append_right _)
    | some v' =>
      refine (h.complete k v' hmid hnone).imp (List.mem_append_left _) ?_
      exact Exists.imp fun e he => ⟨hx.find_type he.1, he.2⟩
  stands w hw := by
    rcases List.mem_append.1 hw with hw | hw
    · exact (h.stands w hw).grow hx.symbols hx.scopes hx.types
    · exact h'.stands w hw
  qualified w hw := by
    rcases List.mem_append.1 hw with hw | hw
    · exact h.qualified w hw
    · rw [h'.qualified w hw, h.package]
      rfl
  new w hw := by
    rcases List.mem_append.1 hw with hw | hw
    · exact h.new w hw
    · obtain ⟨hT, hy, hc⟩ := h'.new w hw
      exact ⟨Nat.le_trans h.sizes.1 hT, Nat.le_trans h.sizes.2.1 hy, Nat.le_trans h.sizes.2.2 hc⟩
  sizes := ⟨Nat.le_trans h.sizes.1 h'.sizes.1, Nat.le_trans h.sizes.2.1 h'.sizes.2.1,
    Nat.le_trans h.sizes.2.2 h'.sizes.2.2⟩
  numbered := h.numbered.trans h'.numbered

/-- The clones are apart from one that was there before. -/
theorem apart (h : Registered suffix q s made t) {w : Wiring} (hw : w ∈ made)
    (hclone : o.clone.index < s.types.entries.size)
    (hholder : o.holder.index < s.symbols.symbols.size)
    (hscope : o.scope.index < s.symbols.scopes.size) : w.toOutline.Apart o := by
  obtain ⟨hT, hy, hc⟩ := h.new w hw
  refine ⟨fun heq => ?_, fun heq => ?_, fun heq => ?_⟩
  · exact absurd (heq ▸ hT) (Nat.not_le_of_lt hclone)
  · exact absurd (heq ▸ hy) (Nat.not_le_of_lt hholder)
  · exact absurd (heq ▸ hc) (Nat.not_le_of_lt hscope)

/-- Work at a clone that was there before registers nothing. -/
theorem aside (h : Registered suffix q s made t) (ha : Aside o t u)
    (hclone : o.clone.index < s.types.entries.size)
    (hholder : o.holder.index < s.symbols.symbols.size)
    (hscope : o.scope.index < s.symbols.scopes.size) {body : Ty}
    (hfind : t.types.find o.clone = .ok (o.entry body)) (hbody : body.structureKind?.isSome) :
    Registered suffix q s made u where
  package := ha.package.trans h.package
  pending := ha.pending.trans h.pending
  memo k v hk := ha.memo ▸ h.memo k v hk
  distinct := h.distinct
  holders := h.holders
  unknown := h.unknown
  remembered w hw := ha.memo ▸ h.remembered w hw
  complete k v hk hnone := by
    refine (h.complete k v (ha.memo ▸ hk) hnone).imp_right ?_
    rintro ⟨e, he, hs⟩
    refine ⟨e, ha.types k e ?_ he, hs⟩
    rintro rfl
    obtain rfl := Except.ok.inj (hfind.symm.trans he)
    have hkind : (o.entry body).ty.structureKind?.isSome := hbody
    simp [hs] at hkind
  stands w hw := (h.stands w hw).aside ha (h.apart hw hclone hholder hscope) hfind
  qualified := h.qualified
  new := h.new
  sizes := ⟨Nat.le_trans h.sizes.1 ha.types_le, Nat.le_trans h.sizes.2.1 ha.symbols_le,
    Nat.le_trans h.sizes.2.2 ha.scopes_le⟩
  numbered := ha.names ▸ h.numbered

end Registered

end StructuralTypes
