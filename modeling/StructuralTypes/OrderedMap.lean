/-!
# Insertion-ordered maps

`OrderedMap κ α` is a finite map that remembers the order in which its keys first arrived. It is
a list of key–value pairs with distinct keys, so two maps are equal exactly when going through
them shows the same pairs in the same order. Writing to a key that is already there keeps the
key's place.

Field maps, the bindings of a scope, the clones that are known and the counters of names are all
maps of this kind. The latter two are never gone through, so their order does not show.

Results:
* `get?_insert`, `keys_insert_of_mem`, `keys_insert_of_not_mem`: what writing does to the two views.
* `entries_ofList`: a list of pairs with different keys is taken over as it is.
* `get?_erase`, `keys_erase`: what removing does to them.
* `get?_eq_some_iff`: a lookup finds exactly the pairs of the list.
-/

namespace StructuralTypes

/-- A finite map that goes through its keys in the order of their first arrival. -/
structure OrderedMap (κ α : Type) where
  /-- The pairs, in order. -/
  entries : List (κ × α)
  /-- No key occurs twice. -/
  nodup : (entries.map Prod.fst).Nodup
deriving DecidableEq, Repr

namespace OrderedMap

variable {κ α : Type}

/-- The map without keys. -/
def empty : OrderedMap κ α := ⟨[], .nil⟩

instance : EmptyCollection (OrderedMap κ α) := ⟨empty⟩

instance : Inhabited (OrderedMap κ α) := ⟨empty⟩

/-- The keys, in order. -/
def keys (m : OrderedMap κ α) : List κ := m.entries.map Prod.fst

/-- The values, in the order of their keys. -/
def values (m : OrderedMap κ α) : List α := m.entries.map Prod.snd

/-- The number of keys. -/
def size (m : OrderedMap κ α) : Nat := m.entries.length

/-- Whether the map has no key. -/
def isEmpty (m : OrderedMap κ α) : Bool := m.entries.isEmpty

@[simp] theorem keys_empty : (∅ : OrderedMap κ α).keys = [] := rfl

theorem keys_nodup (m : OrderedMap κ α) : m.keys.Nodup := m.nodup

@[ext] theorem ext {m n : OrderedMap κ α} (h : m.entries = n.entries) : m = n := by
  cases m; cases n; cases h; rfl

variable [DecidableEq κ]

/-- The value at a key. -/
def get? (m : OrderedMap κ α) (k : κ) : Option α := m.entries.lookup k

/-- Whether a key is there. -/
def contains (m : OrderedMap κ α) (k : κ) : Bool := m.keys.contains k

/-- The pairs with the value at `k` replaced by `v`. -/
def overwrite (k : κ) (v : α) (l : List (κ × α)) : List (κ × α) :=
  l.map fun e => if e.1 = k then (k, v) else e

private theorem map_fst_overwrite (k : κ) (v : α) (l : List (κ × α)) :
    (overwrite k v l).map Prod.fst = l.map Prod.fst := by
  unfold overwrite
  rw [List.map_map]
  refine List.map_congr_left fun e _ => ?_
  by_cases h : e.1 = k <;> simp [h]

/-- Write a value at a key: a key that is there keeps its place, a new key goes to the end. -/
def insert (m : OrderedMap κ α) (k : κ) (v : α) : OrderedMap κ α :=
  if h : k ∈ m.keys then
    ⟨overwrite k v m.entries, by rw [map_fst_overwrite]; exact m.nodup⟩
  else
    ⟨m.entries ++ [(k, v)], by
      rw [List.map_append, List.nodup_append]
      refine ⟨m.nodup, by simp, ?_⟩
      rintro a ha b hb rfl
      simp only [List.map_cons, List.map_nil, List.mem_singleton] at hb
      exact h (hb ▸ ha)⟩

/-- Remove a key; the others keep their order. -/
def erase (m : OrderedMap κ α) (k : κ) : OrderedMap κ α :=
  ⟨m.entries.filter (·.1 ≠ k), m.nodup.sublist (List.filter_sublist.map _)⟩

/-- The map that the pairs of a list write, from left to right. -/
def ofList (l : List (κ × α)) : OrderedMap κ α :=
  l.foldl (fun m e => m.insert e.1 e.2) ∅

/-! ## What the operations show -/

@[simp] theorem get?_empty (k : κ) : (∅ : OrderedMap κ α).get? k = none := rfl

@[simp] theorem contains_iff {m : OrderedMap κ α} {k : κ} : m.contains k = true ↔ k ∈ m.keys := by
  simp [contains]

private theorem lookup_eq_some_iff {k : κ} {v : α} :
    ∀ {l : List (κ × α)}, (l.map Prod.fst).Nodup → (l.lookup k = some v ↔ (k, v) ∈ l)
  | [], _ => by simp
  | (k', v') :: l, h => by
    rw [List.map_cons, List.nodup_cons] at h
    by_cases hk : k = k'
    · subst hk
      have hn : ∀ w, (k, w) ∉ l := fun w hw => h.1 (List.mem_map.2 ⟨(k, w), hw, rfl⟩)
      simp [hn v, eq_comm]
    · simp [List.lookup_cons, beq_eq_false_iff_ne.2 hk, lookup_eq_some_iff h.2, hk]

/-- A lookup finds exactly the pairs of the list. -/
theorem get?_eq_some_iff {m : OrderedMap κ α} {k : κ} {v : α} :
    m.get? k = some v ↔ (k, v) ∈ m.entries :=
  lookup_eq_some_iff m.nodup

theorem get?_eq_none_iff {m : OrderedMap κ α} {k : κ} : m.get? k = none ↔ k ∉ m.keys := by
  rw [Option.eq_none_iff_forall_not_mem]
  simp only [Option.mem_def, get?_eq_some_iff, keys, List.mem_map, Prod.exists, exists_and_right,
    exists_eq_right, not_exists]

theorem entries_insert_of_not_mem {m : OrderedMap κ α} {k : κ} (h : k ∉ m.keys) (v : α) :
    (m.insert k v).entries = m.entries ++ [(k, v)] := by
  rw [insert, dif_neg h]

theorem keys_insert_of_not_mem {m : OrderedMap κ α} {k : κ} (h : k ∉ m.keys) (v : α) :
    (m.insert k v).keys = m.keys ++ [k] := by
  rw [keys, entries_insert_of_not_mem h, List.map_append]
  rfl

theorem keys_insert_of_mem {m : OrderedMap κ α} {k : κ} (h : k ∈ m.keys) (v : α) :
    (m.insert k v).keys = m.keys := by
  rw [keys, insert, dif_pos h]
  exact map_fst_overwrite k v m.entries

theorem mem_keys_insert {m : OrderedMap κ α} {k k' : κ} {v : α} :
    k' ∈ (m.insert k v).keys ↔ k' ∈ m.keys ∨ k' = k := by
  by_cases h : k ∈ m.keys
  · rw [keys_insert_of_mem h]
    constructor
    · exact .inl
    · rintro (hk | rfl)
      · exact hk
      · exact h
  · rw [keys_insert_of_not_mem h, List.mem_append, List.mem_singleton]

/-- Pairs with different keys are all kept. -/
theorem entries_ofList {l : List (κ × α)} (h : (l.map Prod.fst).Nodup) :
    (ofList l).entries = l := by
  -- what the pairs that are left add to the pairs already written
  suffices hf : ∀ (l : List (κ × α)) (m : OrderedMap κ α),
      (m.entries ++ l).map Prod.fst |>.Nodup →
      (l.foldl (fun m e => m.insert e.1 e.2) m).entries = m.entries ++ l from hf l ∅ h
  intro l
  induction l with
  | nil => simp
  | cons e l ih =>
    intro m hm
    have hk : e.1 ∉ m.keys := fun hk => by
      rw [List.map_append, List.nodup_append] at hm
      exact hm.2.2 e.1 hk e.1 (by simp) rfl
    have he := entries_insert_of_not_mem hk e.2
    rw [List.foldl_cons, ih _ (by rw [he]; simpa using hm), he]
    simp

theorem get?_insert (m : OrderedMap κ α) (k k' : κ) (v : α) :
    (m.insert k v).get? k' = if k' = k then some v else m.get? k' := by
  ext w
  by_cases h : k ∈ m.keys
  · rw [get?_eq_some_iff, insert, dif_pos h]
    simp only [overwrite, List.mem_map]
    obtain ⟨⟨_, u⟩, hu, rfl⟩ := List.mem_map.1 h
    split <;> rename_i hk
    · subst hk
      constructor
      · rintro ⟨e, -, he⟩
        split at he <;> rename_i hek
        · exact congrArg some (Prod.mk.inj he).2
        · exact absurd (congrArg Prod.fst he) hek
      · rintro hw
        cases hw
        exact ⟨_, hu, by simp⟩
    · rw [get?_eq_some_iff]
      constructor
      · rintro ⟨e, he, hw⟩
        split at hw
        · exact absurd (congrArg Prod.fst hw).symm hk
        · exact hw ▸ he
      · intro hw
        exact ⟨_, hw, by simp [hk]⟩
  · rw [get?_eq_some_iff, entries_insert_of_not_mem h]
    simp only [List.mem_append, List.mem_singleton, Prod.mk.injEq]
    split <;> rename_i hk
    · subst hk
      have hn : (k', w) ∉ m.entries := fun hw => h (List.mem_map.2 ⟨_, hw, rfl⟩)
      simp [hn, eq_comm]
    · simp [hk, get?_eq_some_iff]

theorem keys_erase (m : OrderedMap κ α) (k : κ) : (m.erase k).keys = m.keys.filter (· ≠ k) := by
  simp [keys, erase, List.filter_map, Function.comp_def]

theorem get?_erase (m : OrderedMap κ α) (k k' : κ) :
    (m.erase k).get? k' = if k' = k then none else m.get? k' := by
  ext w
  rw [get?_eq_some_iff]
  simp only [erase, List.mem_filter, ← get?_eq_some_iff]
  split <;> rename_i hk <;> simp [hk]

/-- Writing what is there changes nothing. -/
theorem insert_of_get? {m : OrderedMap κ α} {k : κ} {v : α} (h : m.get? k = some v) :
    m.insert k v = m := by
  have hk : k ∈ m.keys := List.mem_map.2 ⟨_, get?_eq_some_iff.1 h, rfl⟩
  ext1
  rw [insert, dif_pos hk]
  refine (List.map_congr_left fun e he => ?_).trans (List.map_id m.entries)
  by_cases hek : e.1 = k
  · have hv : m.get? k = some e.2 := get?_eq_some_iff.2 (hek ▸ he)
    rw [if_pos hek, ← hek, Option.some.inj (h.symm.trans hv)]
    rfl
  · rw [if_neg hek]
    rfl

/-- Removing a key that has just arrived gives the map back. -/
theorem erase_insert_of_not_mem {m : OrderedMap κ α} {k : κ} (h : k ∉ m.keys) (v : α) :
    (m.insert k v).erase k = m := by
  ext1
  simp only [erase, entries_insert_of_not_mem h, List.filter_append]
  have hm : m.entries.filter (·.1 ≠ k) = m.entries := by
    rw [List.filter_eq_self]
    intro e he
    simp only [ne_eq, decide_not, Bool.not_eq_eq_eq_not, Bool.not_true, decide_eq_false_iff_not]
    rintro rfl
    exact h (List.mem_map.2 ⟨e, he, rfl⟩)
  rw [hm]
  simp

end OrderedMap

end StructuralTypes
