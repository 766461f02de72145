import Mathlib
import StructuralTypes.Proofs.Readonly.Registry

/-!
# The names of definitions

Definitions are looked up by name, but registered by symbol. The clone of a structure with a name
shows that name, and not which package it is from. The clone of a structure without a name shows a
number, which is counted for the package that the variant is requested for, and not for the package
that the definition goes to.

Requests may be made in any order, in different packages and for different packages, and with clones
kept in different slots. `History qs c made c'` says what such requests have registered.

Results:
* `Wiring.name_eq_iff_of_named`, `Wiring.name_eq_iff_of_numbered`, `Wiring.name_ne`: when two clones
  are named alike.
* **`History.run`**: what any number of requests register.
* **`named_findType?`**: clones that show different names have definitions of different names, and
  the first of those that show one name is found.
* **`anonymous_names_nodup_iff`**: made-up names are unique in each package exactly as long as
  clones in it that were requested for different packages show different numbers.
* `History.nodup_names`: so they are if all requests in one package are for one package.
-/

namespace StructuralTypes

theorem NameSupply.name_injective (family : NameFamily) : (NameSupply.name family).Injective := by
  intro n n' h
  unfold NameSupply.name at h
  exact Nat.repr_injective ((String.append_right_inj _).1 h)

/-- A definition is found under its name exactly if none that was registered before has the name. -/
theorem Package.findType?_eq_some_iff {p : Package} {pre post : List TypeDefinition}
    {d : TypeDefinition} (h : p.typeDefinitions = pre ++ d :: post) (hd : d ∉ pre) :
    p.findType? d.name.name = some d ↔ ∀ d' ∈ pre, d'.name.name ≠ d.name.name := by
  unfold findType?
  rw [h, List.find?_append]
  cases hfind : pre.find? (·.name.name == d.name.name) with
  | none =>
    refine iff_of_true (by simp) fun d' hd' => ?_
    simpa using List.find?_eq_none.1 hfind d' hd'
  | some d' =>
    have hmem := List.mem_of_find?_eq_some hfind
    have hname : d'.name.name = d.name.name := by simpa using List.find?_some hfind
    refine iff_of_false ?_ fun hnone => hnone d' hmem hname
    rintro ⟨⟩
    exact hd hmem

namespace Wiring

variable {w w' : Wiring} {n n' : Nat}

/-- The number in a made-up name, with the package that it was counted for. -/
def tag? (w : Wiring) : Option (PackageId × Nat) := w.number.map (w.stamp.package, ·)

theorem name_of_number_eq_some (h : w.number = some n) :
    w.name = NameSupply.name .anonymousType n := by
  simp only [Outline.name, h]

theorem name_of_number_eq_none (h : w.number = none) :
    w.name = "(" ++ w.named.name ++ " & readonly)" := by
  simp only [Outline.name, h]

/-- Clones that show names are named alike if the names are alike. -/
theorem name_eq_iff_of_named (h : w.number = none) (h' : w'.number = none) :
    w.name = w'.name ↔ w.named.name = w'.named.name := by
  rw [name_of_number_eq_none h, name_of_number_eq_none h', String.append_left_inj,
    String.append_right_inj]

/-- Clones that show numbers are named alike if the numbers are alike. -/
theorem name_eq_iff_of_numbered (h : w.number = some n) (h' : w'.number = some n') :
    w.name = w'.name ↔ n = n' := by
  rw [name_of_number_eq_some h, name_of_number_eq_some h']
  exact (NameSupply.name_injective _).eq_iff

/-- A name is shown otherwise than a number. -/
theorem name_ne (h : w.number = none) (h' : w'.number = some n) : w.name ≠ w'.name := by
  rw [name_of_number_eq_none h, name_of_number_eq_some h']
  intro heq
  have hlists := congrArg (fun s => s.toList.head?) heq
  simp [NameSupply.name, NameFamily.stem] at hlists

end Wiring

namespace Compilation

variable {c c' c'' : Compilation} {slots : CloneSlots} {r : CloneRequest}
  {qs qs' : List (CloneSlots × CloneRequest)} {made made' : Nat → List Wiring} {v : TypeId}
  {vs : List TypeId} {package : Package} {i : Nat} {w w' : Wiring}

/-- Answer a request with the clones in the slots that it comes with. -/
def answer (q : CloneSlots × CloneRequest) : Action TypeId := request q.1 q.2

/-- In answer to requests, the clones `made i` were registered in the package at position `i`. -/
structure History (qs : List (CloneSlots × CloneRequest)) (c : Compilation)
    (made : Nat → List Wiring) (c' : Compilation) : Prop where
  /-- All that was there is there. -/
  grows : c.Extends c'
  /-- The packages have got the definitions of the clones. -/
  packages : ∀ (i : Nat) (p : Package), c.packages[i]? = some p → c'.packages[i]? =
    some { p with typeDefinitions := p.typeDefinitions ++ (made i).map (·.definition) }
  /-- Each clone was made in answer to one of the requests, and is remembered. -/
  requested : ∀ i, ∀ w ∈ made i, ∃ q ∈ qs, q.2.environment.package = i ∧
    q.2.stamp.package = w.stamp.package ∧ (c'.memo q.1.memo).get? w.source = some w.clone
  /-- All that belongs to the clones is there. -/
  stands : ∀ i, ∀ w ∈ made i, w.Stands c.settings.initializerSuffix c'.symbols c'.types
  /-- Their symbols are new. -/
  new : ∀ i, ∀ w ∈ made i, c.symbols.symbols.size ≤ w.holder.index
  /-- Each clone has its own symbol. -/
  holders : ∀ i, ((made i).map (·.holder)).Nodup
  /-- No number is handed out again. -/
  counts : ∀ q, c.names.count .anonymousType q ≤ c'.names.count .anonymousType q
  /-- The numbers are new. -/
  range : ∀ i, ∀ w ∈ made i, ∀ q n, w.tag? = some (q, n) →
    c.names.count .anonymousType q ≤ n ∧ n < c'.names.count .anonymousType q
  /-- For each package, they are different. -/
  tags : ∀ i, ((made i).filterMap (·.tag?)).Nodup

namespace History

/-- Without requests nothing is registered. -/
theorem nil (c : Compilation) : History [] c (fun _ => []) c where
  grows := .refl c
  packages i p hp := by simpa using hp
  requested := by simp
  stands := by simp
  new := by simp
  holders := by simp
  counts _ := Nat.le_refl _
  range := by simp
  tags := by simp

/-- What is registered in answer to one request. -/
theorem exists_of_request (h : request slots r c = .ok v c') :
    ∃ made, History [(slots, r)] c made c' := by
  obtain ⟨package, t, made, hpackage, hmade, rfl⟩ := registered_of_request h
  have hgrows := extends_of_request_eq_ok h
  have hmem : ∀ {i w}, w ∈ (if i = r.environment.package then made else []) →
      r.environment.package = i ∧ w ∈ made := by
    intro i w hw
    split at hw <;> rename_i hi
    · exact ⟨hi.symm, hw⟩
    · cases hw
  have htags : made.filterMap (·.tag?) = (made.filterMap (·.number)).map (r.stamp.package, ·) := by
    rw [List.map_filterMap]
    refine List.filterMap_congr fun w hw => ?_
    rw [Wiring.tag?, hmade.numbered.requested w hw]
  refine ⟨fun i => if i = r.environment.package then made else [],
    { grows := hgrows
      packages := fun i p hp => ?_
      requested := fun i w hw => ?_
      stands := fun i w hw => hmade.stands w (hmem hw).2
      new := fun i w hw => (hmade.new w (hmem hw).2).2.1
      holders := fun i => ?_
      counts := hmade.numbered.counts
      range := fun i w hw q n hn => ?_
      tags := fun i => ?_ }⟩
  · show (c.packages.setIfInBounds r.environment.package t.package)[i]? = _
    by_cases hi : r.environment.package = i
    · subst hi
      obtain rfl := Option.some.inj (hpackage.symm.trans hp)
      rw [Array.getElem?_setIfInBounds_self_of_lt (Array.getElem?_eq_some_iff.1 hp).1,
        hmade.package, if_pos rfl]
      rfl
    · rw [Array.getElem?_setIfInBounds_ne hi, if_neg (Ne.symm hi)]
      simpa using hp
  · refine ⟨_, List.mem_singleton_self _, (hmem hw).1, ?_, ?_⟩
    · exact (hmade.numbered.requested w (hmem hw).2).symm
    · rw [memo_keep, if_pos rfl]
      exact hmade.remembered w (hmem hw).2
  · split
    · exact hmade.holders
    · exact .nil
  · obtain ⟨m, hm, heq⟩ := Option.map_eq_some_iff.1 hn
    obtain ⟨rfl, rfl⟩ := Prod.mk.inj heq
    have hq := hmade.numbered.requested w (hmem hw).2
    rw [hq]
    exact hmade.numbered.range w (hmem hw).2 m hm
  · split
    · rw [htags]
      exact hmade.numbered.distinct.map fun _ _ heq => (Prod.mk.inj heq).2
    · exact .nil

/-- What is registered in answer to some requests and then to others. -/
theorem append (h : History qs c made c') (h' : History qs' c' made' c'') :
    History (qs ++ qs') c (fun i => made i ++ made' i) c'' where
  grows := h.grows.trans h'.grows
  packages i p hp := by
    rw [h'.packages i _ (h.packages i p hp)]
    simp
  requested i w hw := by
    rcases List.mem_append.1 hw with hw | hw
    · obtain ⟨q, hq, hi, hpackage, hmemo⟩ := h.requested i w hw
      exact ⟨q, List.mem_append_left _ hq, hi, hpackage, h'.grows.memo _ _ _ hmemo⟩
    · obtain ⟨q, hq, hrest⟩ := h'.requested i w hw
      exact ⟨q, List.mem_append_right _ hq, hrest⟩
  stands i w hw := by
    rcases List.mem_append.1 hw with hw | hw
    · exact (h.stands i w hw).grow h'.grows.symbols h'.grows.scopes h'.grows.types
    · exact h.grows.settings ▸ h'.stands i w hw
  new i w hw := by
    rcases List.mem_append.1 hw with hw | hw
    · exact h.new i w hw
    · exact Nat.le_trans h.grows.symbols.size_le (h'.new i w hw)
  holders i := by
    rw [List.map_append]
    refine (h.holders i).append (h'.holders i) fun x hx hx' => ?_
    obtain ⟨w, hw, rfl⟩ := List.mem_map.1 hx
    obtain ⟨w', hw', heq⟩ := List.mem_map.1 hx'
    have hle := h'.new i w' hw'
    rw [heq] at hle
    exact absurd (h.stands i w hw).lt_size (Nat.not_lt_of_le hle)
  counts q := Nat.le_trans (h.counts q) (h'.counts q)
  range i w hw q n hn := by
    rcases List.mem_append.1 hw with hw | hw
    · exact (h.range i w hw q n hn).imp_right fun hlt => Nat.lt_of_lt_of_le hlt (h'.counts q)
    · exact (h'.range i w hw q n hn).imp_left (Nat.le_trans (h.counts q))
  tags i := by
    rw [List.filterMap_append]
    refine (h.tags i).append (h'.tags i) fun ⟨q, n⟩ hn hn' => ?_
    obtain ⟨w, hw, hwn⟩ := List.mem_filterMap.1 hn
    obtain ⟨w', hw', hwn'⟩ := List.mem_filterMap.1 hn'
    exact absurd (h.range i w hw q n hwn).2 (Nat.not_lt_of_le (h'.range i w' hw' q n hwn').1)

/-- **What is registered in answer to any number of requests.** -/
theorem run (hrun : qs.mapM answer c = .ok vs c') : ∃ made, History qs c made c' := by
  induction qs generalizing c vs with
  | nil =>
    cases hrun
    exact ⟨_, nil _⟩
  | cons q qs ih =>
    obtain ⟨v, c₁, vs', hv, hvs, rfl⟩ := mapM_cons_eq_ok hrun
    obtain ⟨made, h⟩ := exists_of_request hv
    obtain ⟨made', h'⟩ := ih hvs
    exact ⟨_, h.append h'⟩

/-- A clone has a number in its name if the structure has no name of its own. -/
theorem number_isSome (h : History qs c made c') (hw : w ∈ made i) :
    w.number.isSome = w.named.isAnonymous := by
  obtain ⟨_, -, hstands⟩ := (h.stands i w hw).outline
  exact hstands.numbered

/-- Otherwise it has none. -/
theorem number_eq_none (h : History qs c made c') (hw : w ∈ made i)
    (hnamed : w.named.isAnonymous = false) : w.number = none := by
  rw [← Option.not_isSome_iff_eq_none, h.number_isSome hw, hnamed]
  exact Bool.false_ne_true

/-- The definitions of the clones in one package differ. -/
theorem definition_notMem {pre post : List Wiring} (h : History qs c made c')
    (hi : made i = pre ++ w :: post) : w.definition ∉ pre.map (·.definition) := by
  have hholders := h.holders i
  rw [hi, List.map_append, List.nodup_append] at hholders
  intro hmem
  obtain ⟨w', hw', heq⟩ := List.mem_map.1 hmem
  have hholder : w'.holder = w.holder := congrArg TypeDefinition.symbol heq
  exact hholders.2.2 _ (List.mem_map_of_mem hw') _ List.mem_cons_self hholder

/-- Clones in one package that were made for one package show different numbers. -/
theorem eq_of_tag? (h : History qs c made c') (hw : w ∈ made i) (hw' : w' ∈ made i)
    {tag : PackageId × Nat} (ht : w.tag? = some tag) (ht' : w'.tag? = some tag) : w = w' := by
  by_contra hne
  have hpairwise := List.pairwise_filterMap.1 (h.tags i)
  have : Std.Symm fun w w' : Wiring => ∀ tag, w.tag? = some tag → ∀ tag',
      w'.tag? = some tag' → tag ≠ tag' :=
    ⟨fun _ _ hr tag ht tag' ht' => (hr tag' ht' tag ht).symm⟩
  exact hpairwise.forall hw hw' hne tag ht tag ht' rfl

/-- The made-up names in a package are different exactly if clones that were made for different
packages show different numbers. -/
theorem nodup_names_iff (h : History qs c made c') (i : Nat) :
    (((made i).filter (·.named.isAnonymous)).map (·.definition.name.name)).Nodup ↔
      ∀ w ∈ made i, ∀ w' ∈ made i, ∀ n, w.number = some n → w'.number = some n →
        w.stamp.package = w'.stamp.package := by
  constructor
  · intro hnodup w hw w' hw' n hn hn'
    have hmem : ∀ w ∈ made i, w.number = some n → w ∈ (made i).filter (·.named.isAnonymous) := by
      intro w hw hn
      refine List.mem_filter.2 ⟨hw, ?_⟩
      rw [← h.number_isSome hw, hn]
      rfl
    have hname : w.name = w'.name := (Wiring.name_eq_iff_of_numbered hn hn').2 rfl
    rw [List.inj_on_of_nodup_map hnodup (hmem w hw hn) (hmem w' hw' hn') hname]
  · intro hpackages
    refine List.Nodup.map_on (fun w hw w' hw' hname => ?_) ((h.holders i).of_map.filter _)
    obtain ⟨hw, hanonymous⟩ := List.mem_filter.1 hw
    obtain ⟨hw', hanonymous'⟩ := List.mem_filter.1 hw'
    rw [← h.number_isSome hw] at hanonymous
    rw [← h.number_isSome hw'] at hanonymous'
    obtain ⟨n, hn⟩ := Option.isSome_iff_exists.1 hanonymous
    obtain ⟨n', hn'⟩ := Option.isSome_iff_exists.1 hanonymous'
    obtain rfl := (Wiring.name_eq_iff_of_numbered hn hn').1 hname
    have hpackage := hpackages w hw w' hw' n hn hn'
    have htag : w.tag? = some (w.stamp.package, n) := by simp [Wiring.tag?, hn]
    exact h.eq_of_tag? hw hw' htag (by simp [Wiring.tag?, hn', hpackage])

/-- So they are if all requests in one package are for one package. -/
theorem nodup_names (h : History qs c made c') (i : Nat)
    (hqs : ∀ q ∈ qs, ∀ q' ∈ qs, q.2.environment.package = i → q'.2.environment.package = i →
      q.2.stamp.package = q'.2.stamp.package) :
    (((made i).filter (·.named.isAnonymous)).map (·.definition.name.name)).Nodup := by
  refine (h.nodup_names_iff i).2 fun w hw w' hw' _ _ _ => ?_
  obtain ⟨q, hq, hi, hpackage, -⟩ := h.requested i w hw
  obtain ⟨q', hq', hi', hpackage', -⟩ := h.requested i w' hw'
  rw [← hpackage, ← hpackage']
  exact hqs q hq q' hq' hi hi'

end History

/-! ## Looking up definitions -/

/-- **Clones that show different names have definitions of different names.** So a definition is
found under its name exactly if no clone that shows the same name was registered before. The package
has no definitions at first. -/
theorem named_findType? (c c' : Compilation) (qs : List (CloneSlots × CloneRequest))
    (vs : List TypeId) (i : Nat) (package : Package) (hrun : qs.mapM answer c = .ok vs c')
    (hi : c.packages[i]? = some package) (hempty : package.typeDefinitions = []) :
    ∃ made package', History qs c made c' ∧ c'.packages[i]? = some package' ∧
      package'.typeDefinitions = (made i).map (·.definition) ∧
        (∀ w ∈ made i, ∀ w' ∈ made i, w.named.isAnonymous = false →
          w'.named.isAnonymous = false → w.named.name ≠ w'.named.name →
            w.definition.name.name ≠ w'.definition.name.name) ∧
          ∀ pre w post, made i = pre ++ w :: post → w.named.isAnonymous = false →
            (package'.findType? w.definition.name.name = some w.definition ↔
              ∀ w' ∈ pre, w'.named.isAnonymous = false → w'.named.name ≠ w.named.name) := by
  obtain ⟨made, h⟩ := History.run hrun
  have hpackage := h.packages i package hi
  rw [hempty, List.nil_append] at hpackage
  refine ⟨made, _, h, hpackage, rfl, fun w hw w' hw' hn hn' hne heq => ?_,
    fun pre w post hmade hn => ?_⟩
  · exact hne ((Wiring.name_eq_iff_of_named (h.number_eq_none hw hn)
      (h.number_eq_none hw' hn')).1 heq)
  · have hw : w ∈ made i := hmade ▸ List.mem_append_right _ List.mem_cons_self
    have hpre : ∀ w' ∈ pre, w' ∈ made i := fun w' hw' => hmade ▸ List.mem_append_left _ hw'
    have hdefinitions : (made i).map (·.definition) =
        pre.map (·.definition) ++ w.definition :: post.map (·.definition) := by
      rw [hmade, List.map_append, List.map_cons]
    rw [Package.findType?_eq_some_iff hdefinitions (h.definition_notMem hmade), List.forall_mem_map]
    refine forall₂_congr fun w' hw' => ?_
    cases hanonymous : w'.named.isAnonymous with
    | false =>
      have hnames := Wiring.name_eq_iff_of_named (h.number_eq_none (hpre w' hw') hanonymous)
        (h.number_eq_none hw hn)
      exact (not_congr hnames).trans (by simp)
    | true =>
      -- a made-up name is never that of a structure with a name
      obtain ⟨n, hn'⟩ := Option.isSome_iff_exists.1
        ((h.number_isSome (hpre w' hw')).trans hanonymous)
      exact iff_of_true (Wiring.name_ne (h.number_eq_none hw hn) hn').symm (by simp)

/-- The names of the definitions of the first package, with their types. -/
def definitions (c : Compilation) : Option (List (String × Option TypeId)) :=
  (c.packages[0]?).map (·.typeDefinitions.map fun d => (d.name.name, d.ty))

/-- What the first package has under a name. -/
def lookup (c : Compilation) (name : String) : Option TypeId :=
  ((c.packages[0]?).bind (·.findType? name)).bind (·.ty)

/-- A record with a field for another one, which has a name of its own. -/
def neighbours : Compilation :=
  app [("Left", ⟨14⟩), ("Right", ⟨15⟩)] [appRecord ⟨1⟩ [("right", ⟨15⟩)], appRecord ⟨2⟩ []]

/-- Both are cloned, and each definition is found under its name. -/
theorem neighbours_findType? : ∃ c' made package',
    [({}, appRequest ⟨14⟩), ({}, appRequest ⟨15⟩)].mapM answer neighbours = .ok [⟨16⟩, ⟨17⟩] c' ∧
      History [({}, appRequest ⟨14⟩), ({}, appRequest ⟨15⟩)] neighbours made c' ∧
      c'.packages[0]? = some package' ∧
      (made 0).map (·.definition.name.name) = ["(Right & readonly)", "(Left & readonly)"] ∧
      c'.lookup "(Left & readonly)" = some ⟨16⟩ ∧ c'.lookup "(Right & readonly)" = some ⟨17⟩ ∧
        (∀ w ∈ made 0, ∀ w' ∈ made 0, w.named.isAnonymous = false →
          w'.named.isAnonymous = false → w.named.name ≠ w'.named.name →
            w.definition.name.name ≠ w'.definition.name.name) ∧
          ∀ pre w post, made 0 = pre ++ w :: post → w.named.isAnonymous = false →
            (package'.findType? w.definition.name.name = some w.definition ↔
              ∀ w' ∈ pre, w'.named.isAnonymous = false → w'.named.name ≠ w.named.name) := by
  have hrun : EndsWell (fun vs c => vs = [⟨16⟩, ⟨17⟩] ∧
      (c.definitions.map (·.map Prod.fst)) = some ["(Right & readonly)", "(Left & readonly)"] ∧
        c.lookup "(Left & readonly)" = some ⟨16⟩ ∧ c.lookup "(Right & readonly)" = some ⟨17⟩)
      ([({}, appRequest ⟨14⟩), ({}, appRequest ⟨15⟩)].mapM answer neighbours) := by
    decide +kernel
  obtain ⟨_, c', hc', rfl, hnames, hleft, hright⟩ := hrun
  obtain ⟨made, package', hmade, hpackage, hdefinitions, hdifferent, hfind⟩ :=
    named_findType? neighbours c' _ _ 0 { id := ⟨0⟩, name := "app" } hc' (by decide +kernel) rfl
  refine ⟨c', made, package', hc', hmade, hpackage, ?_, hleft, hright, hdifferent, hfind⟩
  simpa [definitions, hpackage, hdefinitions, Function.comp_def] using hnames

/-- Two records of one name, of which the second is from another package. -/
def imported : Compilation :=
  let c := app [("R", ⟨14⟩), ("R", ⟨15⟩)] [appRecord ⟨1⟩ [], appRecord ⟨2⟩ []]
  { c with
    symbols := { c.symbols with
      symbols := c.symbols.symbols.modify 2 fun s => { s with package := ⟨1⟩ } } }

/-- Their clones are named alike, and the definition of the second is not found. -/
theorem imported_alike :
    (∀ p ∈ imported.packages, p.typeDefinitions = []) ∧
      (imported.symbols.symbols.toList.map fun s => (s.name, s.package)) =
        [("app", ⟨0⟩), ("R", ⟨0⟩), ("R", ⟨1⟩)] ∧
        ∃ c', [({}, appRequest ⟨14⟩), ({}, appRequest ⟨15⟩)].mapM answer imported =
            .ok [⟨16⟩, ⟨18⟩] c' ∧
          c'.definitions = some [("(R & readonly)", some ⟨16⟩), ("(R & readonly)", some ⟨18⟩)] ∧
            c'.lookup "(R & readonly)" = some ⟨16⟩ := by
  have hrun : EndsWell (fun vs c => vs = [⟨16⟩, ⟨18⟩] ∧
      c.definitions = some [("(R & readonly)", some ⟨16⟩), ("(R & readonly)", some ⟨18⟩)] ∧
        c.lookup "(R & readonly)" = some ⟨16⟩)
      ([({}, appRequest ⟨14⟩), ({}, appRequest ⟨15⟩)].mapM answer imported) := by
    decide +kernel
  obtain ⟨_, c', hc', rfl, hseen⟩ := hrun
  exact ⟨by decide +kernel, by decide +kernel, c', hc', hseen⟩

/-! ## Made-up names -/

/-- **The made-up names in a package are different exactly if no two clones in it that were
requested for different packages show the same number.** So they are if all requests in the package
are for one package. -/
theorem anonymous_names_nodup_iff (c c' : Compilation) (qs : List (CloneSlots × CloneRequest))
    (vs : List TypeId) (hrun : qs.mapM answer c = .ok vs c') :
    ∃ made, History qs c made c' ∧ ∀ i,
      ((((made i).filter (·.named.isAnonymous)).map (·.definition.name.name)).Nodup ↔
        ∀ w ∈ made i, ∀ w' ∈ made i, ∀ n, w.number = some n → w'.number = some n →
          w.stamp.package = w'.stamp.package) ∧
      ((∀ q ∈ qs, ∀ q' ∈ qs, q.2.environment.package = i → q'.2.environment.package = i →
          q.2.stamp.package = q'.2.stamp.package) →
        (((made i).filter (·.named.isAnonymous)).map (·.definition.name.name)).Nodup) := by
  obtain ⟨made, h⟩ := History.run hrun
  exact ⟨made, h, fun i => ⟨h.nodup_names_iff i, h.nodup_names i⟩⟩

/-- Two records without names. -/
def unnamed : Compilation := app [("", ⟨14⟩), ("", ⟨15⟩)] [appRecord ⟨1⟩ [], appRecord ⟨2⟩ []]

/-- If both are cloned for one package, the clones get different names. -/
theorem unnamed_nodup : ∃ c' made,
    [({}, appRequest ⟨14⟩), ({}, appRequest ⟨15⟩)].mapM answer unnamed = .ok [⟨16⟩, ⟨18⟩] c' ∧
      History [({}, appRequest ⟨14⟩), ({}, appRequest ⟨15⟩)] unnamed made c' ∧
        ∀ i, (((made i).filter (·.named.isAnonymous)).map (·.definition.name.name)).Nodup := by
  have hrun : answers? ([({}, appRequest ⟨14⟩), ({}, appRequest ⟨15⟩)].mapM answer unnamed) =
      some [⟨16⟩, ⟨18⟩] := by
    decide +kernel
  obtain ⟨c', hc'⟩ := answers?_eq_some hrun
  obtain ⟨made, hmade, hnames⟩ := anonymous_names_nodup_iff unnamed c' _ _ hc'
  refine ⟨c', made, hc', hmade, fun i => (hnames i).2 ?_⟩
  simp [appRequest]

/-- If the second is cloned for another package, both clones get the same name. -/
theorem unnamed_alike :
    (∀ p ∈ unnamed.packages, p.typeDefinitions = []) ∧
      (unnamed.symbols.symbols.toList.map (·.name)) = ["app", "", ""] ∧
        ∃ c', [({}, appRequest ⟨14⟩), ({}, { appRequest ⟨15⟩ with stamp := ⟨{}, ⟨1⟩, ⟨0⟩⟩ })].mapM
            answer unnamed = .ok [⟨16⟩, ⟨18⟩] c' ∧
          c'.definitions = some [("$anonType$_0", some ⟨16⟩), ("$anonType$_0", some ⟨18⟩)] := by
  have hrun : EndsWell (fun vs c => vs = [⟨16⟩, ⟨18⟩] ∧
      c.definitions = some [("$anonType$_0", some ⟨16⟩), ("$anonType$_0", some ⟨18⟩)])
      ([({}, appRequest ⟨14⟩), ({}, { appRequest ⟨15⟩ with stamp := ⟨{}, ⟨1⟩, ⟨0⟩⟩ })].mapM answer
        unnamed) := by
    decide +kernel
  obtain ⟨_, c', hc', rfl, hdefinitions⟩ := hrun
  exact ⟨by decide +kernel, by decide +kernel, c', hc', hdefinitions⟩

end Compilation

end StructuralTypes
