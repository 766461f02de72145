import StructuralTypes.Proofs.Readonly.Deep
import StructuralTypes.Proofs.Readonly.Stability

/-!
# When a request fails

A variant is made from those of all types that are needed for it, so it cannot be made if one of
these is *stuck*: a placeholder, or a reference that leads round in a circle. That is also the only
way to fail, other than by going on for ever, if handles are in range and structures can be given
names: each has a symbol, its fields have different names, and none of these is one that the
initializer could have. What the search relies on then holds all the way, in particular for the
clones that it has made itself.

Readonly types end the search: what they stand for, or are made of, does not matter.

Results:
* `TypeTable.Settled.not_stuck`, `TypeTable.Unfolds.not_stuck`: what has a variant is not stuck.
* `Traced.not_stuck`: nothing that is needed for a finished variant is stuck.
* `Provenance.legible`: the search can build fields with all that it has given.
* `Synth.readonlyWithin_accounts`: a search that stops has come to a type that is stuck.
* **`request_fails_iff`**: a request fails exactly if a type is stuck that is needed for it.
* `frozen_returned`: a placeholder that claims to be readonly is not stuck.
-/

namespace StructuralTypes

/-! ## Names -/

/-- The names of the fields of a structure. -/
def Ty.fieldNames (ty : Ty) : List String := ty.fields?.elim [] (·.values.map (·.name))

theorem Ty.fieldNames_eq {ty : Ty} {fields : FieldMap} (h : ty.fields? = some fields) :
    ty.fieldNames = fields.values.map (·.name) := by
  unfold fieldNames
  rw [h]
  rfl

/-- The symbols that an entry refers to: that of the type and those of its fields. -/
def TypeEntry.symbols (e : TypeEntry) : List SymbolId :=
  e.symbol.toList ++ e.ty.fields?.elim [] (·.values.filterMap (·.symbol))

theorem TypeEntry.mem_symbols_of_symbol {e : TypeEntry} {x : SymbolId} (h : e.symbol = some x) :
    x ∈ e.symbols :=
  List.mem_append_left _ (by simp [h])

theorem TypeEntry.mem_symbols_of_field {e : TypeEntry} {fields : FieldMap} {f : Field}
    {x : SymbolId} (h : e.ty.fields? = some fields) (hf : f ∈ fields.values)
    (hx : f.symbol = some x) : x ∈ e.symbols := by
  refine List.mem_append_right _ ?_
  rw [h]
  exact List.mem_filterMap.2 ⟨f, hf, hx⟩

/-- The structure can be given an initializer with a name that ends in the suffix: it has a symbol,
and its fields have names that differ from each other and from all such names. -/
structure TypeEntry.Initializable (suffix : String) (e : TypeEntry) : Prop where
  /-- It has a symbol. -/
  named : e.symbol.isSome
  /-- The fields have different names. -/
  distinct : e.ty.fieldNames.Nodup
  /-- None of them ends in the suffix. -/
  free : ∀ name ∈ e.ty.fieldNames, ¬("." ++ suffix).toList <:+ name.toList

instance (suffix : String) : DecidablePred (TypeEntry.Initializable suffix) := fun e =>
  decidable_of_iff (e.symbol.isSome ∧ e.ty.fieldNames.Nodup ∧
      ∀ name ∈ e.ty.fieldNames, ¬("." ++ suffix).toList <:+ name.toList)
    ⟨fun ⟨hn, hd, hf⟩ => ⟨hn, hd, hf⟩, fun ⟨hn, hd, hf⟩ => ⟨hn, hd, hf⟩⟩

/-- The name of an initializer ends in the suffix. -/
theorem suffix_attachedName (name suffix : String) :
    ("." ++ suffix).toList <:+ (attachedName name suffix).toList := by
  have happend : (attachedName name suffix).toList = name.toList ++ ("." ++ suffix).toList := by
    unfold attachedName
    rw [String.append_assoc]
    exact String.toList_append
  rw [happend]
  exact List.suffix_append _ _

namespace TypeTable

variable {T U : TypeTable} {P : TypeId → TypeId → Prop} {ty u base v : TypeId} {e : TypeEntry}
  {o : Obstacle} {n : Nat} {suffix : String} {x : Stop}

/-- All symbols that types and fields refer to are among the first `n`. -/
def SymbolsBelow (T : TypeTable) (n : Nat) : Prop :=
  ∀ ty e, T.find ty = .ok e → ∀ x ∈ e.symbols, x.index < n

instance (n : Nat) : DecidablePred (SymbolsBelow · n) := fun T =>
  decidable_of_iff (∀ e ∈ T.entries, ∀ x ∈ e.symbols, x.index < n) forall_find_iff.symm

/-- All structures that are needed for a variant of `ty` can be given initializers. -/
def Initializable (T : TypeTable) (suffix : String) (ty : TypeId) : Prop :=
  ∀ u base e, Relation.ReflTransGen T.Needs ty u → T.Unfolds u base e →
    e.ty.structureKind?.isSome → e.Initializable suffix

/-! ## Types without a variant -/

/-- The type has no variant, for it stands for a placeholder or for nothing. -/
inductive Stuck (T : TypeTable) (ty : TypeId) : Obstacle → Prop
  /-- It stands for a placeholder, at which the search does not end. -/
  | placeholder {base : TypeId} {e : TypeEntry} (implied : T.implied ty = .ok base)
      (found : T.find base = .ok e) (placeholder : e.ty = .placeholder)
      (writable : e.isReadonly = false) : Stuck T ty .errorDetailPlaceholder
  /-- Its chain of references does not end. -/
  | unresolved (endless : ∀ n base, ¬T.Resolves n ty base) : Stuck T ty .unresolvedReference

/-- A type that can be cloned is not stuck. -/
theorem Unfolds.not_stuck (h : T.Unfolds ty base e) : ¬T.Stuck ty o := by
  intro hs
  cases hs with
  | placeholder implied found placeholder =>
    obtain rfl := Except.ok.inj (h.implied.symm.trans implied)
    obtain rfl := Except.ok.inj (h.found.symm.trans found)
    have hc := h.clonable
    simp [placeholder, Ty.isClonable, Ty.structureKind?, Ty.isRebuilt] at hc
  | unresolved endless =>
    have hne := Ty.isClonable_ne_ref h.clonable
    obtain ⟨n, hn⟩ := (implied_eq_ok_iff_resolves h.found hne).1 h.implied
    exact endless n base hn

/-- Nor is one that is its own variant. -/
theorem Settled.not_stuck (hT : T.PlainReferences) (h : T.Settled ty) : ¬T.Stuck ty o := by
  intro hs
  cases hs with
  | placeholder implied found _ writable =>
    obtain ⟨d, hd, hr⟩ := isReadonly_eq_ok_iff.1 (h.isReadonly_base hT implied)
    obtain rfl := Except.ok.inj (found.symm.trans hd)
    simp [writable] at hr
  | unresolved endless =>
    obtain ⟨u, hchain, hu⟩ := h
    obtain ⟨d, hd, hr⟩ := isReadonly_eq_ok_iff.1 hu
    obtain ⟨n, hn⟩ := (Resolves.here hd (hT.ne_ref hd hr)).of_chain hchain
    exact endless n u hn

/-- A type that failed to resolve is settled. -/
theorem Failed.settled (h : T.Failed ty) : T.Settled ty := by
  obtain ⟨n, base, d, hr, hd, hty⟩ := h
  have himplied := (implied_eq_ok_iff_resolves hd (by simp [hty])).2 ⟨n, hr⟩
  refine ⟨base, chain_of_implied himplied, isReadonly_eq_ok_iff.2 ⟨d, hd, ?_⟩⟩
  simp [TypeEntry.isReadonly, hty, Ty.isUnwritable]

/-- What has a variant is not stuck. -/
theorem Replaces.not_stuck (hT : T.PlainReferences) (h : T.Replaces P ty v) : ¬T.Stuck ty o := by
  rcases h with ⟨-, hr⟩ | ⟨base, d, hu, -⟩
  · exact hr.settled.not_stuck hT
  · exact hu.not_stuck

/-- The stop is due to a type that is stuck and is needed for a variant of `ty`. -/
def Accounts (T : TypeTable) (ty : TypeId) (x : Stop) : Prop :=
  ∃ u o, Relation.ReflTransGen T.Needs ty u ∧ T.Stuck u o ∧ x = .fault (.notClonable u o)

/-- What is due to a member is due to the type. -/
theorem Accounts.of_member (hu : T.Unfolds ty base e) (hm : u ∈ e.ty.members)
    (h : T.Accounts u x) : T.Accounts ty x := by
  obtain ⟨w, o, hreach, hw⟩ := h
  exact ⟨w, o, .head ⟨base, e, hu, hm⟩ hreach, hw⟩

theorem initializable_of_entries
    (h : ∀ e ∈ T.entries, e.ty.structureKind?.isSome → e.Initializable suffix) :
    T.Initializable suffix ty :=
  fun _ base e _ hu => forall_find_iff.2 h base e hu.found

theorem Initializable.of_member (h : T.Initializable suffix ty) (hu : T.Unfolds ty base e)
    (hm : u ∈ e.ty.members) : T.Initializable suffix u :=
  fun w b d hreach => h w b d (.head ⟨base, e, hu, hm⟩ hreach)

end TypeTable

/-! ## Searches that stop -/

/-- At least `n` symbols are there, and so are those with definitions. -/
structure Session.Orderly (n : Nat) (s : Session) : Prop where
  /-- The symbols are there. -/
  symbols : n ≤ s.symbols.symbols.size
  /-- Definitions are of symbols that are there. -/
  definitions : ∀ f ∈ s.package.typeDefinitions, f.symbol.index < s.symbols.symbols.size

namespace Session.Orderly

variable {s t : Session} {n : Nat} {base : TypeId} {e : TypeEntry} {d : Draft}

theorem follows (h : s.Orderly n) (hf : s.Follows t) : t.Orderly n where
  symbols := Nat.le_trans h.symbols hf.keeps.symbols.size_le
  definitions f hm := (hf.definitions f hm).elim
    (fun hs => Nat.lt_of_lt_of_le (h.definitions f hs) hf.keeps.symbols.size_le) And.right

theorem drafting {s₁ : Session} (h : s.Orderly n) (hd : s.Drafts base e d s₁)
    (ht : s.Drafting base d t) : t.Orderly n := by
  have hholder := ht.holder
  rw [hd.holder_index] at hholder
  have hsize := h.symbols
  refine ⟨by omega, fun f hf => (ht.definitions f hf).elim (fun hs => ?_) And.right⟩
  have hlt := h.definitions f hs
  omega

/-- The symbol of a draft has no definition. -/
theorem not_registered {s₁ : Session} (h : s.Orderly n) (hd : s.Drafts base e d s₁)
    (ht : s.Drafting base d t) : ∀ f ∈ t.package.typeDefinitions, f.symbol ≠ d.holder := by
  rintro f hf heq
  rcases ht.definitions f hf with hs | ⟨hle, -⟩
  · have hlt := h.definitions f hs
    rw [heq, hd.holder_index] at hlt
    exact Nat.lt_irrefl _ hlt
  · rw [heq] at hle
    exact Nat.not_succ_le_self _ hle

end Session.Orderly

section Accounting

variable {ctx : Context} {cl : Cloner} {T : TypeTable} {Reg : SymbolId → Prop}
  {Abandoned Unfinished : TypeId → Prop} {P : TypeId → TypeId → Prop} {s s₁ t : Session}
  {ty base m v : TypeId} {e : TypeEntry} {d : Draft} {ms vs : List TypeId} {x : Stop} {n : Nat}

/-- **Fields can be built with all that stands for an old type.** -/
theorem Provenance.legible (hp : Provenance T Reg Abandoned Unfinished P t) (hT : T.Closed)
    (hsymbols : T.SymbolsBelow n) (ht : t.Orderly n) (hm : m.index < T.entries.size)
    (hv : T.Replaces P m v) : t.Legible v := by
  rcases hv with ⟨rfl, -⟩ | ⟨b, d, -, hP⟩
  · obtain ⟨base, e, himplied, he⟩ := hT.implied_found hp.grows hm
    refine ⟨base, e, himplied, hp.grows.find he, fun _ y hy => ?_⟩
    exact Nat.lt_of_lt_of_le (hsymbols base e he y (TypeEntry.mem_symbols_of_symbol hy)) ht.symbols
  · -- a clone is neither a reference nor a function type
    obtain ⟨-, d', hd'⟩ := hp.source hP
    obtain ⟨e', he', -, hc, -⟩ := hp.clone hP hd'
    refine ⟨v, e', TypeTable.implied_eq_self he' (Ty.isClonable_ne_ref hc), he', fun hi => ?_⟩
    cases hty : e'.ty <;> simp_all [Ty.isInvokable, Ty.isClonable, Ty.structureKind?, Ty.isRebuilt]

/-- A search that stops, other than for going on for ever, has come to a type that is stuck. -/
def Cloner.AccountsFor (cl : Cloner) (T : TypeTable) (Reg : SymbolId → Prop)
    (Abandoned : TypeId → Prop) (n : Nat) (suffix : String) : Prop :=
  ∀ {Unfinished P s ty x t}, Provenance T Reg Abandoned Unfinished P s → s.Orderly n →
  ty.index < T.entries.size →
    T.Initializable suffix ty → cl.Breaks s ty x t → x ≠ .unending → T.Accounts ty x

variable (hT : T.Closed) (hsymbols : T.SymbolsBelow n)

include hT

/-- A type is refused because it is stuck. -/
theorem Session.Refuses.accounts (h : s.Refuses ty x)
    (hp : Provenance T Reg Abandoned Unfinished P s)
    (hty : ty.index < T.entries.size) : T.Accounts ty x := by
  obtain ⟨base, e, himplied, he⟩ := hT.implied_found hp.grows hty
  have hfound := hp.grows.find he
  cases h with
  | lost _ missing => exact absurd hfound (missing base e himplied)
  | @unclonable base' e' o _ himplied' hfound' hw hobstacle =>
    obtain rfl := Except.ok.inj (himplied.symm.trans himplied')
    obtain rfl := Except.ok.inj (hfound.symm.trans hfound')
    refine ⟨ty, o, .refl, ?_, rfl⟩
    unfold Ty.obstacle? at hobstacle
    split at hobstacle
    · rename_i hplaceholder
      obtain rfl := Option.some.inj hobstacle
      have hne : ∀ target, e.ty ≠ .ref target := by simp [hplaceholder]
      obtain ⟨k, hk⟩ := (TypeTable.implied_eq_ok_iff_resolves hfound hne).1 himplied
      have himplied₀ := (TypeTable.implied_eq_ok_iff_resolves he hne).2
        ⟨k, hT.resolves hp.grows hty hk⟩
      exact .placeholder himplied₀ he hplaceholder hw
    · rename_i target href
      obtain rfl := Option.some.inj hobstacle
      refine .unresolved fun k b hk => ?_
      -- the chain would end at the base, which is a reference
      obtain ⟨d, hd, hne⟩ := hk.base_found
      have hb := (TypeTable.implied_eq_ok_iff_resolves (hp.grows.find hd) hne).2
        ⟨k, hk.grows hp.grows⟩
      obtain rfl := Except.ok.inj (himplied.symm.trans hb)
      obtain rfl := Except.ok.inj (he.symm.trans hd)
      exact hne target href
    · simp at hobstacle

include hsymbols

/-- The making of a clone meets no hindrance. -/
theorem not_hindrance {suffix : String} (hsuffix : ctx.settings.initializerSuffix = suffix)
    (hp : Provenance T Reg Abandoned Unfinished P t) (hs : s.Orderly n) (hd : s.Drafts base e d s₁)
    (ht : s.Drafting base d t) (hbase : T.find base = .ok e) (he : e.Initializable suffix)
    (hms : ∀ m ∈ ms, m.index < T.entries.size) (hvs : List.Forall₂ (T.Replaces P) ms vs) :
    ¬Hindrance ctx s e d.holder vs t := by
  rintro (⟨of, field, symbol, missing⟩ | ⟨given, illegible⟩ | ⟨of, twice⟩ |
    ⟨of, field, taken⟩ | ⟨defined, same⟩)
  · have hlt := hsymbols base e hbase _ (TypeEntry.mem_symbols_of_field of field symbol)
    exact absurd (Nat.lt_of_lt_of_le hlt hs.symbols) (Nat.not_lt_of_le missing)
  · obtain ⟨m, hm, hv⟩ := forall₂_exists hvs.flip given
    exact illegible (hp.legible hT hsymbols (hs.drafting hd ht) (hms m hm) hv)
  · exact twice (Ty.fieldNames_eq of ▸ he.distinct)
  · refine he.free _ ?_ (hsuffix ▸ taken ▸ suffix_attachedName _ _)
    rw [Ty.fieldNames_eq of]
    exact List.mem_map_of_mem field
  · exact hs.not_registered hd ht _ defined same

/-- A step that stops has come to a type that is stuck. -/
theorem StepStops.accounts (h : StepStops ctx cl s ty x t) (hcl : cl.Keeps)
    (htr : cl.Traces T Reg Abandoned)
    (hacc : cl.AccountsFor T Reg Abandoned n ctx.settings.initializerSuffix)
    (hp : Provenance T Reg Abandoned Unfinished P s) (hs : s.Orderly n)
    (hty : ty.index < T.entries.size)
    (hinit : T.Initializable ctx.settings.initializerSuffix ty) (hx : x ≠ .unending) :
    T.Accounts ty x := by
  cases h with
  | refused refuses => exact refuses.accounts hT hp hty
  | @rebuilding base m e pre post vs _ u _ opens rebuilt split before breaks =>
    have hu := hp.unfolds opens
    have hmembers := hp.members_lt hT opens
    have hm : m ∈ e.ty.members := by simp [split]
    obtain ⟨P₁, -, hp₁, -⟩ := before.provenance_bare htr hT hp opens (by simp [split])
    exact .of_member hu hm (hacc hp₁ (hs.follows (before.follows hcl)) (hmembers m hm)
      (hinit.of_member hu hm) breaks hx)
  | @cloning base e _ _ opens structured abandons =>
    have hu := hp.unfolds opens
    have he := hinit ty base e .refl hu structured
    cases abandons with
    | early _ nameless =>
      obtain ⟨y, hy⟩ := Option.isSome_iff_exists.1 he.named
      have hlt := hsymbols base e hu.found y (TypeEntry.mem_symbols_of_symbol hy)
      exact absurd (Nat.lt_of_lt_of_le hlt hs.symbols) (Nat.not_lt_of_le (nameless y hy))
    | @late d s₁ u vs body _ drafts stops =>
      have hmembers := hp.members_lt hT opens
      cases stops with
      | @call pre post _ m u' _ _ split before breaks =>
        have hm : m ∈ e.ty.members := by simp [split]
        obtain ⟨P₁, -, hp₁, -⟩ :=
          before.provenance_drafting hcl htr hT hp opens drafts (by simp [split])
        have hdt := Session.Drafting.of_visits hcl drafts before
        exact .of_member hu hm (hacc hp₁ (hs.drafting drafts hdt) (hmembers m hm)
          (hinit.of_member hu hm) breaks hx)
      | work part before hindered =>
        obtain ⟨P₁, -, hp₁, hvs⟩ :=
          before.provenance_drafting hcl htr hT hp opens drafts part.subset
        have hdt := Session.Drafting.of_visits hcl drafts before
        exact absurd hindered.2
          (not_hindrance hT hsymbols rfl hp₁ hs drafts hdt hu.found he
            (fun m hm => hmembers m (part.subset hm)) hvs)

/-- **A search that stops has come to a type that is stuck**, unless it would go on for ever. -/
theorem Synth.readonlyWithin_accounts (ctx : Context) (depth : Nat) :
    (readonlyWithin ctx depth).AccountsFor T Reg Abandoned n ctx.settings.initializerSuffix := by
  refine readonlyWithin_induction
    (C := fun cl => cl.AccountsFor T Reg Abandoned n ctx.settings.initializerSuffix) ctx
    (fun cl _ hstop => ?_) (fun m cl ih _ hstep => ?_) depth
  · intro Unfinished P s ty x t _ _ _ _ h hx
    exact absurd (hstop h).1 hx
  · intro Unfinished P s ty x t hp hs hty hinit h hx
    exact (hstep h).accounts hT hsymbols (readonlyWithin_keeps ctx m)
      (readonlyWithin_traces ctx m hT) ih hp hs hty hinit hx

end Accounting

/-! ## Requests -/

namespace Compilation

variable {slots : CloneSlots} {c c' : Compilation} {r : CloneRequest} {T : TypeTable}
  {Abandoned : TypeId → Prop} {P : TypeId → TypeId → Prop} {ty u v : TypeId} {o : Obstacle}
  {x : Stop}

/-- All that is needed for a finished variant is settled or has a variant. -/
theorem Traced.replaces_of_needs (hplain : T.PlainReferences)
    (h : Traced slots T Abandoned (fun _ => False) P c) (hv : T.Replaces P ty v)
    (hu : Relation.ReflTransGen T.Needs ty u) : T.Settled u ∨ ∃ w, T.Replaces P u w := by
  induction hu with
  | refl => exact .inr ⟨v, hv⟩
  | @tail m u _ hneeds ih =>
    obtain ⟨base, e, hm, hu⟩ := hneeds
    have hP : ∃ w, P base w := by
      rcases ih with hsettled | ⟨w, hw⟩
      · have hr := hsettled.isReadonly_base hplain hm.implied
        simp [hm.isReadonly_base] at hr
      · exact ⟨w, hw.of_unfolds hm⟩
    obtain ⟨w, hw⟩ := hP
    obtain ⟨e', he', -⟩ := h.clones.clone hw hm.self
    by_cases hf : T.Failed u
    · exact .inl hf.settled
    · obtain ⟨w', -, hw'⟩ := (h.clones.finished hw id hm.self he').mirrors.forth hu hf
      exact .inr ⟨w', hw'⟩

/-- Nothing that is needed for a finished variant is stuck. -/
theorem Traced.not_stuck (hplain : T.PlainReferences)
    (h : Traced slots T Abandoned (fun _ => False) P c) (hv : T.Replaces P ty v)
    (hu : Relation.ReflTransGen T.Needs ty u) : ¬T.Stuck u o := by
  rcases h.replaces_of_needs hplain hv hu with hs | ⟨w, hw⟩
  · exact hs.not_stuck hplain
  · exact hw.not_stuck hplain

/-- In a package that is there, a request that fails is a search that stops. -/
theorem stops_of_request_eq_error (hpackage : r.environment.package < c.packages.size)
    (h : request slots r c = .error x c') : ∃ package t, package ∈ c.packages ∧
      Synth.readonlyVariant ⟨c.settings, r.environment.scopeOwner⟩ r.stamp r.ty
        (c.session package slots) = .error x t := by
  have hi := Array.getElem?_eq_getElem hpackage
  refine ⟨c.packages[r.environment.package], ?_⟩
  unfold request readonlyVariant synthesize at h
  rw [hi] at h
  dsimp only at h
  split at h
  · cases h
  · rename_i x' t ht
    cases h
    exact ⟨t, Array.getElem_mem hpackage, ht⟩

/-- **A request fails exactly if a type that is needed for it is stuck**, unless it would go on for
ever; it then tells which one and why, and never blames an earlier pass. All handles are in range,
no clone is known and no reference claims to be readonly, and the structures that are needed can be
given initializers. -/
theorem request_fails_iff (c : Compilation) (slots : CloneSlots) (r : CloneRequest)
    (hc : c.InRange) (hsymbols : c.types.SymbolsBelow c.symbols.symbols.size)
    (hty : r.ty.index < c.types.entries.size)
    (hpackage : r.environment.package < c.packages.size) (hmemo : c.memo slots.memo = ∅)
    (hpending : c.pending slots.pending = ∅) (hplain : c.types.PlainReferences)
    (hinit : c.types.Initializable c.settings.initializerSuffix r.ty)
    (hends : ∀ c', request slots r c ≠ .error .unending c') :
    ((∃ x c', request slots r c = .error x c') ↔
        ∃ u o, Relation.ReflTransGen c.types.Needs r.ty u ∧ c.types.Stuck u o) ∧
      ∀ x c', request slots r c = .error x c' → ∃ f : Fault, x = .fault f ∧ f.isInternal = false ∧
        ∃ u o, f = .notClonable u o ∧ Relation.ReflTransGen c.types.Needs r.ty u ∧
          c.types.Stuck u o := by
  have hstart := Traced.start hc hmemo hpending
  have haccounts : ∀ x c', request slots r c = .error x c' → c.types.Accounts r.ty x := by
    intro x c' hr
    obtain ⟨package, t, hmem, ht⟩ := stops_of_request_eq_error hpackage hr
    refine Synth.readonlyWithin_accounts hc.types hsymbols ⟨c.settings, r.environment.scopeOwner⟩ _
      (hstart.session hmem) ⟨Nat.le_refl _, fun f hf => ?_⟩ hty hinit ⟨r.stamp, ht⟩ ?_
    · exact hc.symbols f.symbol ⟨package, hmem, f, hf, rfl⟩
    · rintro rfl
      exact hends c' hr
  refine ⟨⟨?_, ?_⟩, fun x c' hr => ?_⟩
  · rintro ⟨x, c', hr⟩
    obtain ⟨u, o, hu, hs, -⟩ := haccounts x c' hr
    exact ⟨u, o, hu, hs⟩
  · rintro ⟨u, o, hu, hs⟩
    cases hr : request slots r c with
    | error x c' => exact ⟨x, c', rfl⟩
    | ok v c' =>
      obtain ⟨P, -, h, hv, hg, hsame⟩ := hstart.ok hc.types hr
      exact absurd hs (h.not_stuck hplain (hc.types.replaces hg hsame hty hv) hu)
  · obtain ⟨u, o, hu, hs, rfl⟩ := haccounts x c' hr
    exact ⟨_, rfl, rfl, u, o, rfl, hu, hs⟩

/-- A variant of the outer record of `broken` would need one of a placeholder. -/
theorem broken_fails :
    ∃ (f : Fault) (c' : Compilation), request {} (appRequest ⟨14⟩) broken = .error f c' ∧
      f.isInternal = false ∧ ∃ u o, Relation.ReflTransGen broken.types.Needs ⟨14⟩ u ∧
        broken.types.Stuck u o := by
  have hrun : stops? (request {} (appRequest ⟨14⟩) broken) =
      some (.fault (.notClonable Builtin.errorDetail .errorDetailPlaceholder)) := by
    decide +kernel
  obtain ⟨c', hc'⟩ := stops?_eq_some hrun
  obtain ⟨-, hfails⟩ := request_fails_iff broken {} (appRequest ⟨14⟩) (inRange_app (by decide))
    (by decide) (by decide) (by decide) rfl rfl (by decide)
    (TypeTable.initializable_of_entries (by decide)) (by simp [hc'])
  obtain ⟨f, hf, hinternal, u, o, -, hu, ho⟩ := hfails _ c' hc'
  exact ⟨f, c', hf ▸ hc', hinternal, u, o, hu, ho⟩

/-- A placeholder that claims to be readonly. -/
def frozen : Compilation := app [] [{ ty := .placeholder, flags := .only .readonly }]

/-- It is its own variant, although it stands for a placeholder and all that `request_fails_iff`
asks for is there. So a request does not fail for every placeholder that is needed, but for those
that can be written to. -/
theorem frozen_returned :
    frozen.InRange ∧ frozen.types.SymbolsBelow frozen.symbols.symbols.size ∧
      frozen.memo 0 = ∅ ∧ frozen.pending 0 = ∅ ∧ frozen.types.PlainReferences ∧
        frozen.types.Initializable frozen.settings.initializerSuffix ⟨14⟩ ∧
          (∃ c', request {} (appRequest ⟨14⟩) frozen = .ok ⟨14⟩ c') ∧
            ¬((∃ x c', request {} (appRequest ⟨14⟩) frozen = .error x c') ↔
              ∃ u, Relation.ReflTransGen frozen.types.Needs ⟨14⟩ u ∧
                ((∃ base e, frozen.types.implied u = .ok base ∧ frozen.types.find base = .ok e ∧
                    e.ty = .placeholder) ∨
                  ∀ n base, ¬frozen.types.Resolves n u base)) := by
  have hrun : answers? (request {} (appRequest ⟨14⟩) frozen) = some ⟨14⟩ := by decide +kernel
  obtain ⟨c', hc'⟩ := answers?_eq_some hrun
  refine ⟨inRange_app (by decide), by decide, rfl, rfl, by decide,
    TypeTable.initializable_of_entries (by decide), ⟨c', hc'⟩, fun h => ?_⟩
  obtain ⟨x, c'', hx⟩ := h.2 ⟨⟨14⟩, .refl, .inl ⟨⟨14⟩, _, rfl, rfl, rfl⟩⟩
  rw [hc'] at hx
  cases hx

end Compilation

end StructuralTypes
