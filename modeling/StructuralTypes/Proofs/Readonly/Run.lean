import StructuralTypes.Compilation.Synthesis
import StructuralTypes.Proofs.Readonly.Trace

/-!
# Runs of requests

In a compilation, readonly variants are requested one after the other, in different packages, with
the clones kept in the same slots. `Traced slots T Abandoned Unfinished P c` says that the
compilation `c` has come to hold what such requests made of a compilation with the type table `T`.

Results:
* `request_eq_ok`, `request_eq_error`: a request is a search in a session.
* `Traced.ok`, `Traced.error`: what one request does.
* **`Traced.run`**: what requests do that are all answered.
-/

namespace StructuralTypes

/-- A request for a readonly variant. -/
structure CloneRequest where
  /-- Where it is made. -/
  environment : Environment
  /-- What the symbols of the clones have in common. -/
  stamp : Stamp
  /-- The type whose variant is requested. -/
  ty : TypeId
deriving DecidableEq, Repr

namespace Compilation

variable {slots : CloneSlots} {c c' c₁ : Compilation} {r : CloneRequest} {rs : List CloneRequest}
  {package : Package} {t : Session} {v : TypeId} {vs : List TypeId} {x : Stop} {i : Nat}
  {T : TypeTable} {Abandoned Unfinished Unfinished' : TypeId → Prop} {P P' : TypeId → TypeId → Prop}

/-- Answer a request, with the clones in the given slots. -/
def request (slots : CloneSlots) (r : CloneRequest) : Action TypeId :=
  readonlyVariant r.environment slots r.stamp r.ty

/-- The symbol has a type definition in some package. -/
def Defines (c : Compilation) (x : SymbolId) : Prop :=
  ∃ p ∈ c.packages, ∃ d ∈ p.typeDefinitions, d.symbol = x

instance (x : SymbolId) : Decidable (c.Defines x) :=
  decidable_of_iff (∃ p ∈ c.packages.toList, ∃ d ∈ p.typeDefinitions, d.symbol = x) (by
    simp [Defines])

/-- All stored handles lead to something. -/
structure InRange (c : Compilation) : Prop where
  /-- The builtin types are there. -/
  builtins : TypeTable.initial.entries.size ≤ c.types.entries.size
  /-- Types are made of types that are there. -/
  types : c.types.Closed
  /-- Definitions are of types that are there. -/
  definitions : ∀ p ∈ c.packages, ∀ d ∈ p.typeDefinitions, ∀ ty, d.ty = some ty →
    ty.index < c.types.entries.size
  /-- Symbols with definitions are there. -/
  symbols : ∀ x, c.Defines x → x.index < c.symbols.symbols.size

/-- The session outside all packages. -/
def bare (c : Compilation) (slots : CloneSlots) : Session :=
  c.session { id := ⟨0⟩, name := "" } slots

theorem session_keep (c : Compilation) (i : Nat) (slots : CloneSlots) (t : Session)
    (package : Package) : (c.keep i slots t).session package slots = { t with package } := by
  simp [session, keep, keepTables, memo, pending, OrderedMap.get?_insert]

/-! ## One request -/

/-- A request that is answered is a search that gives a variant. -/
theorem request_eq_ok (h : request slots r c = .ok v c') :
    ∃ package t, c.packages[r.environment.package]? = some package ∧
      Synth.readonlyVariant ⟨c.settings, r.environment.scopeOwner⟩ r.stamp r.ty
        (c.session package slots) = .ok v t ∧ c' = c.keep r.environment.package slots t := by
  unfold request readonlyVariant synthesize at h
  split at h
  · cases h
  · rename_i package hpackage
    split at h
    · rename_i v' t ht
      cases h
      exact ⟨package, t, hpackage, ht, rfl⟩
    · cases h

/-- A request that fails is a search that stops, or is made in no package. -/
theorem request_eq_error (h : request slots r c = .error x c') :
    c' = c ∨ ∃ package t, c.packages[r.environment.package]? = some package ∧
      Synth.readonlyVariant ⟨c.settings, r.environment.scopeOwner⟩ r.stamp r.ty
        (c.session package slots) = .error x t ∧ c' = c.keep r.environment.package slots t := by
  unfold request readonlyVariant synthesize at h
  split at h
  · cases h
    exact .inl rfl
  · rename_i package hpackage
    split at h
    · cases h
    · rename_i x' t ht
      cases h
      exact .inr ⟨package, t, hpackage, ht, rfl⟩

/-! ## Provenance -/

/-- What requests have made of a compilation with the type table `T` is known to `P`. -/
structure Traced (slots : CloneSlots) (T : TypeTable) (Abandoned Unfinished : TypeId → Prop)
    (P : TypeId → TypeId → Prop) (c : Compilation) : Prop where
  /-- The clones have their provenance. -/
  clones : Provenance T c.Defines Abandoned Unfinished P (c.bare slots)
  /-- No clone is pending. -/
  idle : ∀ ty, (c.pending slots.pending).get? ty = none
  /-- What is defined was there or is not unfinished. -/
  definitions : ∀ p ∈ c.packages, ∀ d ∈ p.typeDefinitions, ∀ ty, d.ty = some ty →
    ty.index < T.entries.size ∨ ∃ b, P b ty ∧ ¬Unfinished ty
  /-- Symbols with definitions are there. -/
  symbols : ∀ x, c.Defines x → x.index < c.symbols.symbols.size

/-- At first nothing is cloned. -/
theorem Traced.start (hc : c.InRange) (hmemo : c.memo slots.memo = ∅)
    (hpending : c.pending slots.pending = ∅) :
    Traced slots c.types (fun _ => False) (fun _ => False) (fun _ _ => False) c where
  clones :=
    { grows := StructuralTypes.Grows.refl _
      same := .refl _
      unique := fun h => h.elim
      source := fun h => h.elim
      clone := fun h => h.elim
      finished := fun h => h.elim
      unfinished := fun h => h.elim
      pending := fun {b v} (h : (c.pending slots.pending).get? b = some v) => by
        rw [hpending] at h
        cases h
      memo := fun {k v} (h : (c.memo slots.memo).get? k = some v) => by
        rw [hmemo] at h
        cases h
      abandoned := fun h => h.elim
      all := fun hi he => absurd (Array.getElem?_eq_some_iff.1 he).1 (Nat.not_lt_of_le hi)
      definitions := fun hd => absurd hd List.not_mem_nil }
  idle ty := by
    rw [hpending]
    rfl
  definitions p hp d hd ty hty := .inl (hc.definitions p hp d hd ty hty)
  symbols := hc.symbols

/-- What has a definition after a session in a package had one before or got it there. -/
theorem defines_keep {y : SymbolId} (h : (c.keep i slots t).Defines y) :
    c.Defines y ∨ ∃ d ∈ t.package.typeDefinitions, d.symbol = y := by
  obtain ⟨p, hp, d, hd, hy⟩ := h
  rcases Array.mem_or_eq_of_mem_setIfInBounds hp with hp | rfl
  · exact .inl ⟨p, hp, d, hd, hy⟩
  · exact .inr ⟨d, hd, hy⟩

/-- What had a definition before a session in a package, or got it there, has one after it. -/
theorem defines_keep_of {y : SymbolId} (hi : c.packages[i]? = some package)
    (hf : (c.session package slots).Follows t)
    (h : c.Defines y ∨ ∃ d ∈ t.package.typeDefinitions, d.symbol = y) :
    (c.keep i slots t).Defines y := by
  have hself : t.package ∈ (c.keep i slots t).packages :=
    Array.mem_setIfInBounds (Array.getElem?_eq_some_iff.1 hi).1
  rcases h with ⟨p, hp, d, hd, hy⟩ | ⟨d, hd, hy⟩
  swap
  · exact ⟨t.package, hself, d, hd, hy⟩
  obtain ⟨j, hj⟩ := Array.mem_iff_getElem?.1 hp
  by_cases hij : i = j
  · subst hij
    obtain rfl := Option.some.inj (hi.symm.trans hj)
    exact ⟨t.package, hself, d, hf.keeps.definitions.subset hd, hy⟩
  · refine ⟨p, Array.mem_iff_getElem?.2 ⟨j, ?_⟩, d, hd, hy⟩
    show (c.packages.setIfInBounds i t.package)[j]? = some p
    rw [Array.getElem?_setIfInBounds_ne hij]
    exact hj

/-- In a package, the clones have the same provenance. -/
theorem Traced.session (h : Traced slots T Abandoned Unfinished P c) (hp : package ∈ c.packages) :
    Provenance T c.Defines Abandoned Unfinished P (c.session package slots) :=
  h.clones.of_package (fun _ hx => hx.elim id fun ⟨_, hd, _⟩ => absurd hd List.not_mem_nil)
    (h.definitions package hp)

/-- What a session in a package has made is kept. -/
theorem Traced.keep (h : Traced slots T Abandoned Unfinished P c)
    (hi : c.packages[i]? = some package) (hf : (c.session package slots).Follows t)
    (hp : Provenance T c.Defines Abandoned Unfinished' P' t)
    (hle : ∀ b ty, P b ty → ¬Unfinished ty → P' b ty ∧ ¬Unfinished' ty) :
    Traced slots T Abandoned Unfinished' P' (c.keep i slots t) where
  clones := by
    unfold bare
    rw [session_keep]
    exact hp.of_package (fun _ hx => defines_keep_of hi hf hx)
      fun d hd => absurd hd List.not_mem_nil
  idle ty := by
    have hpending := congrArg Session.pending (session_keep c i slots t package)
    exact (congrArg (·.get? ty) (hpending.trans hf.pending)).trans (h.idle ty)
  definitions p hpm d hd ty hty := by
    rcases Array.mem_or_eq_of_mem_setIfInBounds hpm with hpm | rfl
    · exact (h.definitions p hpm d hd ty hty).imp_right fun ⟨b, hb, hunfinished⟩ =>
        ⟨b, hle b ty hb hunfinished⟩
    · exact hp.definitions hd hty
  symbols y hy := by
    show y.index < t.symbols.symbols.size
    have hsize : c.symbols.symbols.size ≤ t.symbols.symbols.size := hf.keeps.symbols.size_le
    rcases defines_keep hy with hy | ⟨d, hd, rfl⟩
    · exact Nat.lt_of_lt_of_le (h.symbols y hy) hsize
    · rcases hf.definitions d hd with hd | ⟨-, hlt⟩
      · have hold := h.symbols d.symbol ⟨package, Array.mem_of_getElem? hi, d, hd, rfl⟩
        exact Nat.lt_of_lt_of_le hold hsize
      · exact hlt

/-- A request that is answered adds to what is known. -/
theorem Traced.ok (hT : T.Closed) (h : Traced slots T Abandoned Unfinished P c)
    (hr : request slots r c = .ok v c') :
    ∃ P', (∀ b ty, P b ty → P' b ty) ∧ Traced slots T Abandoned Unfinished P' c' ∧
      c'.types.Replaces P' r.ty v ∧ c.types.Grows c'.types ∧ c.types.SameWritable c'.types := by
  obtain ⟨package, t, hpackage, hv, rfl⟩ := request_eq_ok hr
  have hs := h.session (Array.mem_of_getElem? hpackage)
  obtain ⟨P', hg, hp, hrep⟩ := Synth.provenance_of_ok hT hs hv
  have hf := (Synth.readonlyWithin_keeps _ _).gives ⟨r.stamp, hv⟩
  have hkept := h.keep hpackage hf hp fun b ty hb hunfinished => ⟨hg.le b ty hb, hunfinished⟩
  exact ⟨P', hg.le, hkept, hrep, hf.keeps.types, hf.same⟩

/-- The request has left `v` behind, the clone of a structure: no variant of the structure is
remembered, and the clone's symbol has no definition. -/
structure LeftBehind (slots : CloneSlots) (T : TypeTable) (P : TypeId → TypeId → Prop)
    (c : Compilation) (v : TypeId) : Prop where
  /-- The base has no variant. -/
  source : ∃ b e, P b v ∧ T.Unfolds b b e ∧ e.ty.structureKind?.isSome ∧
    (c.memo slots.memo).get? b = none
  /-- The symbol has no definition. -/
  undefined : ∀ e y, c.types.find v = .ok e → e.symbol = some y → ¬c.Defines y

/-- A request that fails leaves only clones behind that have no variant and no definition. -/
theorem Traced.error (hT : T.Closed) (h : Traced slots T Abandoned Unfinished P c)
    (hr : request slots r c = .error x c') :
    ∃ Unfinished' P', Traced slots T Abandoned Unfinished' P' c' ∧ (∀ b ty, P b ty → P' b ty) ∧
      ∀ ty, Unfinished' ty → Unfinished ty ∨ LeftBehind slots T P' c' ty := by
  rcases request_eq_error hr with rfl | ⟨package, t, hpackage, hx, rfl⟩
  · exact ⟨Unfinished, P, h, fun _ _ hb => hb, fun _ hunfinished => .inl hunfinished⟩
  have hmem := Array.mem_of_getElem? hpackage
  have hs := h.session hmem
  obtain ⟨Unfinished', P', hl, hp⟩ := Synth.provenance_of_error hT hs hx
  have hf := (Synth.readonlyWithin_keeps _ _).breaks ⟨r.stamp, hx⟩
  refine ⟨Unfinished', P', h.keep hpackage hf hp fun b ty hb hunfinished =>
    ⟨hl.le b ty hb, fun hr => ?_⟩,
    hl.le, fun ty hty => (hl.left ty hty).imp_right fun hleft => ⟨?_, fun e y he hy hdef => ?_⟩⟩
  · rcases hl.left ty hr with hr | hleft
    · exact hunfinished hr
    · exact absurd (hs.lt_size hb) (Nat.not_lt_of_le hleft.new)
  · have hmemo := congrArg Session.memo (session_keep c r.environment.package slots t package)
    obtain ⟨b, e, hP, hu, hs, hnone⟩ := hleft.source
    exact ⟨b, e, hP, hu, hs, (congrArg (·.get? b) hmemo).trans hnone⟩
  · -- the symbol is newer than all that have a definition
    obtain ⟨hle, hfs⟩ := hleft.undefined e y he hy
    have hold : ∀ {y'}, c.Defines y' → y' ≠ y := by
      rintro y' hy' rfl
      exact absurd (h.symbols _ hy') (Nat.not_lt_of_le hle)
    rcases defines_keep hdef with hdef | ⟨d, hd, hdy⟩
    · exact hold hdef rfl
    · rcases hfs d hd with hd | hne
      · exact hold ⟨package, hmem, d, hd, hdy⟩ rfl
      · exact hne hdy

/-! ## Many requests -/

theorem mapM_cons_eq_ok {α β : Type} {f : α → Action β} {a : α} {as : List α} {bs : List β}
    (h : (a :: as).mapM f c = .ok bs c') :
    ∃ b c₁ bs', f a c = .ok b c₁ ∧ as.mapM f c₁ = .ok bs' c' ∧ bs = b :: bs' := by
  rw [List.mapM_cons] at h
  change EStateM.bind _ _ _ = _ at h
  unfold EStateM.bind at h
  split at h
  · rename_i b c₁ hb
    change EStateM.bind _ _ _ = _ at h
    unfold EStateM.bind at h
    split at h
    · rename_i bs' c₂ hbs
      cases h
      exact ⟨b, c₁, bs', hb, hbs, rfl⟩
    · cases h
  · cases h

theorem mapM_singleton {α β : Type} {f : α → Action β} {a : α} {b : β} (h : f a c = .ok b c') :
    [a].mapM f c = .ok [b] c' := by
  rw [List.mapM_cons]
  change EStateM.bind _ _ _ = _
  unfold EStateM.bind
  rw [h]
  rfl

/-- **Requests that are all answered add to what is known.** -/
theorem Traced.run (hT : T.Closed) (h : Traced slots T Abandoned Unfinished P c)
    (hr : rs.mapM (request slots) c = .ok vs c') :
    ∃ P', (∀ b ty, P b ty → P' b ty) ∧ Traced slots T Abandoned Unfinished P' c' ∧
      List.Forall₂ (c'.types.Replaces P') (rs.map (·.ty)) vs ∧ c.types.Grows c'.types ∧
        c.types.SameWritable c'.types := by
  induction rs generalizing c vs P with
  | nil =>
    cases hr
    exact ⟨P, fun _ _ hb => hb, h, .nil, StructuralTypes.Grows.refl _, .refl _⟩
  | cons r rs ih =>
    obtain ⟨v, c₁, vs', hv, hvs, rfl⟩ := mapM_cons_eq_ok hr
    obtain ⟨P₁, hle₁, h₁, hrep, hg₁, hs₁⟩ := h.ok hT hv
    obtain ⟨P₂, hle₂, h₂, hall, hg₂, hs₂⟩ := ih h₁ hvs
    refine ⟨P₂, fun b ty hb => hle₂ b ty (hle₁ b ty hb), h₂, .cons ?_ hall,
      StructuralTypes.Grows.trans hg₁ hg₂, hs₁.trans hs₂⟩
    exact (hrep.grows hg₂ hs₂).imp hle₂

end Compilation

end StructuralTypes
