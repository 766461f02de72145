import StructuralTypes.Proofs.Readonly.Step

/-!
# The shape of a variant

`Ty.Mirrors T R ty ty'` says that `ty'` is built as `ty` is, with members that `R` relates to those
of `ty` in their places. Only a record field whose type failed to resolve has no such member: it
becomes one without values.

Results:
* `Ty.Mirrors.imp`: a weaker relation, and another table in which the same types failed.
* `Ty.Mirrors.forth`, `Ty.Mirrors.back`: members have their counterparts, both ways.
* **`Filled.mirrors`**, **`mirrors_rebuild`**: what is filled, or rebuilt, has the shape of its
  source.
-/

namespace StructuralTypes

variable {S T U : TypeTable} {R Q : TypeId → TypeId → Prop} {ty ty' : Ty} {m v : TypeId}

/-! ## Members in their places -/

theorem forall₂_exists {α β : Type} {P : α → β → Prop} {as : List α} {bs : List β} {a : α}
    (h : List.Forall₂ P as bs) (ha : a ∈ as) : ∃ b ∈ bs, P a b := by
  induction h with
  | nil => simp at ha
  | @cons a' b as bs hab _ ih =>
    rcases List.mem_cons.1 ha with rfl | ha
    · exact ⟨b, by simp, hab⟩
    · obtain ⟨b', hb', hp⟩ := ih ha
      exact ⟨b', by simp [hb'], hp⟩

theorem forall₂_append_of_length {α β : Type} {P : α → β → Prop} {as as' : List α}
    {bs bs' : List β} (hlength : as.length = bs.length)
    (h : List.Forall₂ P (as ++ as') (bs ++ bs')) :
    List.Forall₂ P as bs ∧ List.Forall₂ P as' bs' := by
  induction as generalizing bs with
  | nil =>
    obtain rfl := List.length_eq_zero_iff.1 hlength.symm
    exact ⟨.nil, h⟩
  | cons a as ih =>
    cases bs with
    | nil => simp at hlength
    | cons b bs =>
      cases h with
      | cons hab hrest =>
        obtain ⟨h₁, h₂⟩ := ih (by simpa using hlength) hrest
        exact ⟨.cons hab h₁, h₂⟩

private theorem toList_rel {o o' : Option TypeId} (h : Option.Rel R o o') :
    List.Forall₂ R o.toList o'.toList := by
  cases h with
  | none => exact .nil
  | some hmv => exact .cons hmv .nil

private theorem rel_imp {o o' : Option TypeId} (h : Option.Rel R o o')
    (hR : ∀ m ∈ o.toList, ∀ v, R m v → Q m v) : Option.Rel Q o o' := by
  cases h with
  | none => exact .none
  | some hmv => exact .some (hR _ (by simp) _ hmv)

/-- The field `f'` of a variant stands for the field `f`. -/
structure Field.Mirrors (T : TypeTable) (R : TypeId → TypeId → Prop) (kind : StructureKind)
    (f f' : Field) : Prop where
  /-- Both have the same name. -/
  name : f'.name = f.name
  /-- The types are related, except where a record has a field whose type failed to resolve. -/
  ty : ¬(kind = .record ∧ T.Failed f.ty) → R f.ty f'.ty
  /-- There the field becomes one without values. -/
  degraded : kind = .record → T.Failed f.ty → f'.ty = Builtin.never

theorem Field.Mirrors.imp {kind : StructureKind} {f f' : Field} (h : f.Mirrors T R kind f')
    (hR : ∀ v, R f.ty v → Q f.ty v) (hT : U.Failed f.ty ↔ T.Failed f.ty) :
    f.Mirrors U Q kind f' where
  name := h.name
  ty hf := hR _ (h.ty fun ⟨hk, hfailed⟩ => hf ⟨hk, hT.2 hfailed⟩)
  degraded hk hf := h.degraded hk (hT.1 hf)

/-- The type `ty'` has the kind of `ty`, the fields of the same names in the same order, and members
that `R` relates to those of `ty`. -/
inductive Ty.Mirrors (T : TypeTable) (R : TypeId → TypeId → Prop) : Ty → Ty → Prop
  /-- Records are also sealed alike, and have undeclared fields alike. -/
  | record (r r' : RecordType)
      (fields : List.Forall₂ (Field.Mirrors T R .record) r.fields.values r'.fields.values)
      (keys : r'.fields.keys = r.fields.values.map (·.name)) (sealed : r'.sealed = r.sealed)
      (rest : Option.Rel R r.rest r'.rest) : Mirrors T R (.record r) (.record r')
  /-- Objects. -/
  | object (fields fields' : FieldMap)
      (all : List.Forall₂ (Field.Mirrors T R .object) fields.values fields'.values)
      (keys : fields'.keys = fields.values.map (·.name)) :
      Mirrors T R (.object fields) (.object fields')
  /-- Unions. -/
  | union {ms vs : List TypeId} (members : List.Forall₂ R ms vs) :
      Mirrors T R (.union ms) (.union vs)
  /-- Maps. -/
  | map {m v : TypeId} (constraint : R m v) : Mirrors T R (.map m) (.map v)
  /-- All values but errors. -/
  | any : Mirrors T R .any .any
  /-- Plain data. -/
  | anydata : Mirrors T R .anydata .anydata

namespace Ty.Mirrors

theorem structureKind?_eq (h : Mirrors T R ty ty') : ty'.structureKind? = ty.structureKind? := by
  cases h <;> rfl

theorem isClonable (h : Mirrors T R ty ty') : ty'.isClonable := by
  cases h <;> rfl

/-- The fields have the same names, in the same order. -/
theorem fields_names (h : Mirrors T R ty ty') : ty'.fields?.map (·.values.map (·.name)) =
    ty.fields?.map (·.values.map (·.name)) := by
  have hnames : ∀ {kind} {fs fs' : List Field}, List.Forall₂ (Field.Mirrors T R kind) fs fs' →
      fs'.map (·.name) = fs.map (·.name) := by
    intro kind fs fs' hfs
    induction hfs with
    | nil => rfl
    | cons hf _ ih => rw [List.map_cons, List.map_cons, hf.name, ih]
  cases h with
  | record r r' fields => exact congrArg some (hnames fields)
  | object fields fields' all => exact congrArg some (hnames all)
  | union | map | any | anydata => rfl

private theorem fields_imp {kind : StructureKind} {fs fs' : List Field}
    (h : List.Forall₂ (Field.Mirrors T R kind) fs fs')
    (hR : ∀ m ∈ fs.map (·.ty), ∀ v, R m v → Q m v)
    (hT : ∀ m ∈ fs.map (·.ty), U.Failed m ↔ T.Failed m) :
    List.Forall₂ (Field.Mirrors U Q kind) fs fs' := by
  have hmem := (List.forall₂_and_left (p := (· ∈ fs)) _ _).2 ⟨fun _ hf => hf, h⟩
  refine hmem.imp fun f f' ⟨hf, hmirrors⟩ => ?_
  have hty : f.ty ∈ fs.map (·.ty) := List.mem_map_of_mem hf
  exact hmirrors.imp (hR _ hty) (hT _ hty)

/-- A relation that holds as often for the members, and a table in which the same of them failed. -/
theorem imp (h : Mirrors T R ty ty') (hR : ∀ m ∈ ty.members, ∀ v, R m v → Q m v)
    (hT : ∀ m ∈ ty.members, U.Failed m ↔ T.Failed m) : Mirrors U Q ty ty' := by
  cases h with
  | record r r' fields keys sealed rest =>
    have hsub : ∀ m ∈ r.fields.values.map (·.ty), m ∈ (Ty.record r).members :=
      fun m hm => List.mem_append_left _ hm
    refine .record r r' (fields_imp fields (fun m hm => hR m (hsub m hm))
      fun m hm => hT m (hsub m hm)) keys sealed (rel_imp rest fun m hm => hR m ?_)
    exact List.mem_append_right _ hm
  | object fields fields' all keys => exact .object fields fields' (fields_imp all hR hT) keys
  | union hms =>
    have hmem := (List.forall₂_and_left (p := (· ∈ _)) _ _).2 ⟨fun _ hm => hm, hms⟩
    exact .union (hmem.imp fun m v ⟨hm, hmv⟩ => hR m hm v hmv)
  | map hmv => exact .map (hR _ (by simp [members]) _ hmv)
  | any => exact .any
  | anydata => exact .anydata

/-- A member has its counterpart, unless its type failed to resolve. -/
theorem forth (h : Mirrors T R ty ty') (hm : m ∈ ty.members) (hf : ¬T.Failed m) :
    ∃ v ∈ ty'.members, R m v := by
  have hfield : ∀ {kind} {fs fs' : List Field}, List.Forall₂ (Field.Mirrors T R kind) fs fs' →
      m ∈ fs.map (·.ty) → ∃ v ∈ fs'.map (·.ty), R m v := by
    intro kind fs fs' hfs hmem
    obtain ⟨f, hmf, rfl⟩ := List.mem_map.1 hmem
    obtain ⟨f', hf', hmirrors⟩ := forall₂_exists hfs hmf
    exact ⟨f'.ty, List.mem_map_of_mem hf', hmirrors.ty fun hfailed => hf hfailed.2⟩
  cases h with
  | record r r' fields keys sealed rest =>
    rcases List.mem_append.1 hm with hm | hm
    · obtain ⟨v, hv, hmv⟩ := hfield fields hm
      exact ⟨v, List.mem_append_left _ hv, hmv⟩
    · obtain ⟨v, hv, hmv⟩ := forall₂_exists (toList_rel rest) hm
      exact ⟨v, List.mem_append_right _ hv, hmv⟩
  | object fields fields' all keys => exact hfield all hm
  | union hms => exact forall₂_exists hms hm
  | map hmv =>
    obtain rfl := List.mem_singleton.1 hm
    exact ⟨_, List.mem_singleton_self _, hmv⟩
  | any => simp [members] at hm
  | anydata => simp [members] at hm

/-- A member is a counterpart, unless it stands for a type that failed to resolve. -/
theorem back (h : Mirrors T R ty ty') (hv : v ∈ ty'.members) :
    v = Builtin.never ∨ ∃ m ∈ ty.members, R m v := by
  have hfield : ∀ {kind} {fs fs' : List Field}, List.Forall₂ (Field.Mirrors T R kind) fs fs' →
      v ∈ fs'.map (·.ty) → v = Builtin.never ∨ ∃ m ∈ fs.map (·.ty), R m v := by
    intro kind fs fs' hfs hmem
    obtain ⟨f', hf', rfl⟩ := List.mem_map.1 hmem
    obtain ⟨f, hf, hmirrors⟩ := forall₂_exists hfs.flip hf'
    by_cases hfailed : kind = .record ∧ T.Failed f.ty
    · exact .inl (hmirrors.degraded hfailed.1 hfailed.2)
    · exact .inr ⟨f.ty, List.mem_map_of_mem hf, hmirrors.ty hfailed⟩
  cases h with
  | record r r' fields keys sealed rest =>
    rcases List.mem_append.1 hv with hv | hv
    · exact (hfield fields hv).imp_right fun ⟨m, hm, hmv⟩ => ⟨m, List.mem_append_left _ hm, hmv⟩
    · obtain ⟨m, hm, hmv⟩ := forall₂_exists (toList_rel rest).flip hv
      exact .inr ⟨m, List.mem_append_right _ hm, hmv⟩
  | object fields fields' all keys => exact hfield all hv
  | union hms => exact .inr (forall₂_exists hms.flip hv)
  | map hmv =>
    obtain rfl := List.mem_singleton.1 hv
    exact .inr ⟨_, List.mem_singleton_self _, hmv⟩
  | any => simp [members] at hv
  | anydata => simp [members] at hv

end Ty.Mirrors

/-! ## What is filled and what is rebuilt -/

section

variable (hQ : ∀ m v, Q m v → R m v ∧ (U.Failed m → S.Failed v) ∧ (T.Failed v → U.Failed m))

include hQ

theorem FieldBuilt.mirrors {kind : StructureKind} {f f' : Field} (h : FieldBuilt S T kind f v f')
    (hv : Q f.ty v) : f.Mirrors U R kind f' := by
  obtain ⟨hR, hS, hT⟩ := hQ _ _ hv
  cases h with
  | variant name ty resolved =>
    exact ⟨name, fun _ => ty ▸ hR, fun hk hf => absurd (hS hf) (resolved hk)⟩
  | degraded name record failed ty =>
    exact ⟨name, fun hf => absurd ⟨record, hT failed⟩ hf, fun _ _ => ty⟩

theorem FieldsBuilt.mirrors {kind : StructureKind} {fs fs' : List Field} {vs : List TypeId}
    (h : FieldsBuilt S T kind fs vs fs') (hvs : List.Forall₂ Q (fs.map (·.ty)) vs) :
    List.Forall₂ (Field.Mirrors U R kind) fs fs' := by
  obtain ⟨-, hbuilt⟩ := h
  induction fs generalizing vs fs' with
  | nil =>
    cases hbuilt
    exact .nil
  | cons f fs ih =>
    cases hvs with
    | cons hv hvs =>
      cases hbuilt with
      | cons hb hrest => exact .cons (hb.mirrors hQ hv) (ih hvs hrest)

/-- **A clone that is filled has the shape of its source.** -/
theorem Filled.mirrors {vs : List TypeId} (h : Filled S T ty vs ty')
    (hvs : List.Forall₂ Q ty.members vs) : ty.Mirrors U R ty' := by
  cases h with
  | record r r' fields keys sealed rest =>
    have hlength := fields.length
    obtain ⟨hfields, hrest⟩ := forall₂_append_of_length (by simpa using hlength) hvs
    refine .record r r' (fields.mirrors hQ hfields) keys sealed ?_
    cases hr : r.rest with
    | none =>
      rw [hr, Option.isSome_none] at rest
      rw [Option.isSome_eq_false_iff.1 rest |> Option.isNone_iff_eq_none.1]
      exact .none
    | some m =>
      rw [hr, Option.isSome_some] at rest
      obtain ⟨w, hw⟩ := Option.isSome_iff_exists.1 rest
      rw [hr, hw] at hrest
      rw [hw]
      cases hrest with
      | cons hmw _ => exact .some (hQ _ _ hmw).1
  | object fields keys => exact .object _ _ (fields.mirrors hQ hvs) keys

end

/-- **A type that is rebuilt has the shape of its source.** -/
theorem mirrors_rebuild {vs : List TypeId} (hr : ty.isRebuilt)
    (hvs : List.Forall₂ R ty.members vs) :
    ty.Mirrors T R (ty.rebuild vs) := by
  cases ty with
  | union ms => exact .union hvs
  | map m =>
    cases hvs with
    | cons hmv _ => exact .map hmv
  | any => exact .any
  | anydata => exact .anydata
  | nil | int | float | boolean | string | never | absent | semanticError | record | object | error
  | invokable | ref | placeholder => simp [Ty.isRebuilt] at hr

end StructuralTypes
