import StructuralTypes.Proofs.Readonly.Run

/-!
# Variants have the shape of their types

However types contain each other, and whatever was requested before: a type and its readonly variant
can be followed member by member, and are built alike all the way down.

Results:
* **`variants_mirror`**: requests that are all answered relate types to variants of the same shape.
-/

namespace StructuralTypes

/-- The relation `R` goes from types to their readonly variants, and from the members of each to
those of the other. -/
structure TypeTable.ShapePreserving (T : TypeTable) (R : TypeId → TypeId → Prop) : Prop where
  /-- A variant is the type itself, if that or what it refers to is readonly, or else a readonly
  type of the same shape as what it stands for. -/
  shape : ∀ ty v, R ty v → (v = ty ∧ T.Settled ty) ∨
    ∃ base e e', T.implied ty = .ok base ∧ T.find base = .ok e ∧ T.find v = .ok e' ∧
      e'.flags.contains (.only .readonly) ∧ e.ty.Mirrors T R e'.ty
  /-- A structure has one clone. -/
  unique : ∀ ty e v v', T.find ty = .ok e → e.ty.structureKind?.isSome →
    R ty v → v ≠ ty → R ty v' → v' ≠ ty → v = v'

namespace Compilation

variable {slots : CloneSlots} {c c' : Compilation} {T : TypeTable}
  {Abandoned Unfinished : TypeId → Prop} {P : TypeId → TypeId → Prop} {b v : TypeId}

/-- A clone has the shape of its base also in the table that there is now. -/
theorem Traced.mirrors (hT : T.Closed) (h : Traced slots T Abandoned Unfinished P c') (hP : P b v)
    (hunfinished : ¬Unfinished v) : ∃ e e', T.Unfolds b b e ∧ c'.types.find v = .ok e' ∧
      e'.flags.contains (.only .readonly) ∧
        e.ty.Mirrors c'.types (c'.types.Replaces P) e'.ty := by
  obtain ⟨-, e, he⟩ := h.clones.source hP
  obtain ⟨e', he', hflags, -⟩ := h.clones.clone hP he
  have hg : T.Grows c'.types := h.clones.grows
  refine ⟨e, e', he, he', hflags, (h.clones.finished hP hunfinished he he').mirrors.imp ?_ ?_⟩
  · exact fun m _ w hw => hw.grows hg h.clones.same
  · exact fun m hm => hT.failed_iff hg (hT b e he.found m (.inl hm))

/-- The clones that are known relate types to variants of the same shape. -/
theorem Traced.shapePreserving (hT : T.Closed)
    (h : Traced slots T Abandoned (fun _ => False) P c') :
    c'.types.ShapePreserving (c'.types.Replaces P) := by
  have hunfolds : ∀ {ty base e}, c'.types.Unfolds ty base e → T.Unfolds ty base e :=
    fun hu => h.clones.same.unfolds_iff.2 hu
  constructor
  · rintro ty v (⟨hv, hr⟩ | ⟨base, e, hu, hP⟩)
    · exact .inl ⟨hv, hr.settled⟩
    · obtain ⟨d, e', hd, he', hflags, hmirrors⟩ := h.mirrors hT hP id
      obtain rfl := (hd.unique (hunfolds hu).self).2
      exact .inr ⟨base, _, e', hu.implied, hu.found, he', hflags, hmirrors⟩
  · intro ty e v v' he hs hv hne hv' hne'
    have href : ∀ target, e.ty ≠ .ref target := by
      intro target ht
      simp [ht, Ty.structureKind?] at hs
    -- both are the clone that is remembered
    have hsole : ∀ w, c'.types.Replaces P ty w → w ≠ ty →
        (c'.bare slots).memo.get? ty = some w := by
      rintro w (⟨rfl, -⟩ | ⟨base, d, hu, hP⟩) hw
      · exact absurd rfl hw
      · obtain rfl := Except.ok.inj (hu.implied.symm.trans (TypeTable.implied_eq_self he href))
        obtain rfl := Except.ok.inj (hu.found.symm.trans he)
        obtain ⟨e', he', -⟩ := h.clones.clone hP (hunfolds hu)
        refine (h.clones.finished hP id (hunfolds hu) he').sole ?_
        rintro ⟨d', hd', hr, -⟩
        obtain rfl := (hd'.unique (hunfolds hu)).2
        simp [Ty.isRebuilt_eq_false hs] at hr
    exact Option.some.inj ((hsole v hv hne).symm.trans (hsole v' hv' hne'))

/-- **Requests that are all answered relate types to variants of the same shape**, if no clone is
known at the beginning. -/
theorem variants_mirror (c c' : Compilation) (slots : CloneSlots) (rs : List CloneRequest)
    (vs : List TypeId) (hc : c.InRange) (hmemo : c.memo slots.memo = ∅)
    (hpending : c.pending slots.pending = ∅) (hrun : rs.mapM (request slots) c = .ok vs c') :
    ∃ R : TypeId → TypeId → Prop, List.Forall₂ R (rs.map (·.ty)) vs ∧
      c'.types.ShapePreserving R := by
  obtain ⟨P, -, h, hall, -⟩ := (Traced.start hc hmemo hpending).run hc.types hrun
  exact ⟨c'.types.Replaces P, hall, h.shapePreserving hc.types⟩

/-- A compilation of the package `app` with the types `own` of its own. Its symbols after the first
one have the names and types in `named`. -/
def app (named : List (String × TypeId)) (own : List TypeEntry) : Compilation where
  symbols :=
    { symbols := (("app", none) :: named.map fun n => (n.1, some n.2)).mapIdx (fun i n =>
        { name := n.1, package := ⟨0⟩, span := {}, ty := n.2, id := ⟨i⟩, kind := .type {} })
        |>.toArray }
  types := ⟨TypeTable.initial.entries ++ own.toArray⟩
  packages := #[{ id := ⟨0⟩, name := "app" }]

/-- A record with a symbol and with fields of the given names and types. -/
def appRecord (named : SymbolId) (fields : List (String × TypeId)) : TypeEntry where
  ty := .record { fields := .ofList (fields.map fun f => (f.1, { name := f.1, ty := f.2 })) }
  symbol := some named

/-- A request in the package `app`. -/
def appRequest (ty : TypeId) : CloneRequest :=
  { environment := ⟨0, ⟨0⟩⟩, stamp := ⟨{}, ⟨0⟩, ⟨0⟩⟩, ty }

theorem inRange_app {named : List (String × TypeId)} {own : List TypeEntry}
    (h : (app named own).types.Closed) : (app named own).InRange where
  builtins := by
    rw [app, Array.size_append]
    exact Nat.le_add_right _ _
  types := h
  definitions p hp d hd := by
    obtain rfl : p = { id := ⟨0⟩, name := "app" } := by simpa [app] using hp
    simp at hd
  symbols := by
    rintro x ⟨p, hp, d, hd, -⟩
    obtain rfl : p = { id := ⟨0⟩, name := "app" } := by simpa [app] using hp
    simp at hd

/-- A record with a field for a union of records like itself. -/
def linked : Compilation :=
  app [("Link", ⟨14⟩)] [appRecord ⟨1⟩ [("next", ⟨15⟩)], { ty := .union [⟨14⟩, Builtin.nil] }]

theorem linked_mirrors :
    ∃ vs c', [appRequest ⟨14⟩, appRequest ⟨15⟩].mapM (request {}) linked = .ok vs c' ∧
      ∃ R : TypeId → TypeId → Prop, List.Forall₂ R [⟨14⟩, ⟨15⟩] vs ∧
        c'.types.ShapePreserving R := by
  have hrun : answers? ([appRequest ⟨14⟩, appRequest ⟨15⟩].mapM (request {}) linked) =
      some [⟨16⟩, ⟨17⟩] := by
    decide +kernel
  obtain ⟨c', hc'⟩ := answers?_eq_some hrun
  exact ⟨_, c', hc', variants_mirror linked c' {} _ _ (inRange_app (by decide)) rfl rfl hc'⟩

end Compilation

end StructuralTypes
