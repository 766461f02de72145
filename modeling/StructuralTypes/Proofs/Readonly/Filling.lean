import Mathlib.Data.List.Forall2
import StructuralTypes.Proofs.Readonly.Site
import StructuralTypes.Proofs.Readonly.Visit

/-!
# Filling a clone

The fields of a clone are built one after the other, each from a field of the source and the
variant that the cloner gives for its type. `FieldsBuilt` says what comes of them, `Filling` how
far the work has come, and `BrokenOff` where it has stopped. If no visit has stopped it, it has met
a `Hindrance`.

Results:
* `Filling.visit`: the cloner is called for one more member.
* **`Filling.buildFields`**: the fields are built, or the work stops.
-/

namespace StructuralTypes

/-! ## Hindrances -/

/-- A field can be built with the type: what the type stands for is there, and so is its symbol if
it is a function type. -/
def Session.Legible (s : Session) (ty : TypeId) : Prop :=
  ∃ base e, s.types.implied ty = .ok base ∧ s.types.find base = .ok e ∧
    (e.ty.isInvokable → ∀ x, e.symbol = some x → x.index < s.symbols.symbols.size)

section Legible

variable {s : Session} {ty base : TypeId} {e : TypeEntry} {x : Stop}

/-- What the type stands for has to be found. -/
theorem Session.not_legible_of_implied (hx : s.types.implied ty = .error x) : ¬s.Legible ty := by
  rintro ⟨base, -, himplied, -⟩
  simp [himplied] at hx

/-- It has to be in the table. -/
theorem Session.not_legible_of_find (himplied : s.types.implied ty = .ok base)
    (hx : s.types.find base = .error x) : ¬s.Legible ty := by
  rintro ⟨base', e, himplied', he, -⟩
  obtain rfl := Except.ok.inj (himplied.symm.trans himplied')
  simp [he] at hx

/-- And if it is a function type, so has its symbol to be. -/
theorem Session.not_legible_of_symbol {id : SymbolId} (himplied : s.types.implied ty = .ok base)
    (he : s.types.find base = .ok e) (hinvokable : e.ty.isInvokable) (hid : e.symbol = some id)
    (hmissing : s.symbols.symbols.size ≤ id.index) : ¬s.Legible ty := by
  rintro ⟨base', e', himplied', he', hlegible⟩
  obtain rfl := Except.ok.inj (himplied.symm.trans himplied')
  obtain rfl := Except.ok.inj (he.symm.trans he')
  exact absurd (hlegible hinvokable id hid) (Nat.not_lt_of_le hmissing)

end Legible

/-- What can keep the clone of a structure with the entry `e`, which was drafted in `s` with the
symbol `holder`, from being made in `t`, where the variants `vs` were given for members. -/
inductive Hindrance (ctx : Context) (s : Session) (e : TypeEntry) (holder : SymbolId)
    (vs : List TypeId) (t : Session) : Prop
  /-- The symbol of a field is out of range. -/
  | fieldSymbol {fields : FieldMap} {f : Field} {x : SymbolId} (of : e.ty.fields? = some fields)
      (field : f ∈ fields.values) (symbol : f.symbol = some x)
      (missing : s.symbols.symbols.size ≤ x.index) : Hindrance ctx s e holder vs t
  /-- No field can be built with a variant. -/
  | illegible {v : TypeId} (given : v ∈ vs) (illegible : ¬t.Legible v) :
      Hindrance ctx s e holder vs t
  /-- Two fields have one name. -/
  | nameTwice {fields : FieldMap} (of : e.ty.fields? = some fields)
      (twice : ¬(fields.values.map (·.name)).Nodup) : Hindrance ctx s e holder vs t
  /-- A field has the name that the initializer would have. -/
  | initializerName {fields : FieldMap} {f : Field} {name : String}
      (of : e.ty.fields? = some fields) (field : f ∈ fields.values)
      (taken : f.name = attachedName name ctx.settings.initializerSuffix) :
      Hindrance ctx s e holder vs t
  /-- There is a definition under the symbol of the clone. -/
  | registered {definition : TypeDefinition} (defined : definition ∈ t.package.typeDefinitions)
      (same : definition.symbol = holder) : Hindrance ctx s e holder vs t

/-- The making of a clone has stopped with `x` for such a reason. -/
def Hindered (ctx : Context) (s : Session) (e : TypeEntry) (holder : SymbolId) (vs : List TypeId)
    (x : Stop) (t : Session) : Prop :=
  x ≠ .unending ∧ Hindrance ctx s e holder vs t

/-- The type is made of types in `vs`, and of the one without values. -/
def Ty.MadeOf (ty : Ty) (vs : List TypeId) : Prop := ∀ m ∈ ty.members, m = Builtin.never ∨ m ∈ vs

theorem Ty.MadeOf.mono {ty : Ty} {vs ws : List TypeId} (h : ty.MadeOf vs) (hsub : vs ⊆ ws) :
    ty.MadeOf ws :=
  fun m hm => (h m hm).imp_right fun hv => hsub hv

theorem Ty.mem_members_mapFields {ty : Ty} {fields : FieldMap} {m : TypeId}
    (h : m ∈ (ty.mapFields fun _ => fields).members) :
    m ∈ fields.values.map (·.ty) ∨ m ∈ ty.members := by
  cases ty with
  | record r => exact (List.mem_append.1 h).imp_right fun h => List.mem_append_right _ h
  | object _ => exact .inl h
  | _ => exact .inr h

theorem Ty.mem_members_withRest {ty : Ty} {v m : TypeId} (h : m ∈ (ty.withRest v).members) :
    m = v ∨ m ∈ ty.members := by
  cases ty with
  | record r =>
    rcases List.mem_append.1 h with h | h
    · exact .inr (List.mem_append_left _ h)
    · exact .inl (List.mem_singleton.1 h)
  | _ => exact .inr h

/-! ## One field -/

/-- The field `f'` was built after the template `f`, whose type has the variant `v`. A type that had
failed to resolve in `S` shows as failed in `T`, where the field was built. -/
inductive FieldBuilt (S T : TypeTable) (kind : StructureKind) (f : Field) (v : TypeId)
    (f' : Field) : Prop
  /-- The field has the variant for its type. -/
  | variant (name : f'.name = f.name) (ty : f'.ty = v) (resolved : kind = .record → ¬S.Failed v)
  /-- The field is one without values. -/
  | degraded (name : f'.name = f.name) (record : kind = .record) (failed : T.Failed v)
      (ty : f'.ty = Builtin.never)

namespace FieldBuilt

variable {S T U : TypeTable} {kind : StructureKind} {f f' : Field} {v : TypeId}

theorem name_eq (h : FieldBuilt S T kind f v f') : f'.name = f.name := by
  cases h <;> assumption

theorem ty_eq (h : FieldBuilt S T kind f v f') : f'.ty = Builtin.never ∨ f'.ty = v := by
  cases h with
  | variant _ ty => exact .inr ty
  | degraded _ _ _ ty => exact .inl ty

theorem mono (hT : ∀ ty, T.Failed ty → U.Failed ty) (h : FieldBuilt S T kind f v f') :
    FieldBuilt S U kind f v f' := by
  cases h with
  | variant name ty resolved => exact .variant name ty resolved
  | degraded name record failed ty => exact .degraded name record (hT _ failed) ty

end FieldBuilt

/-- The filling of a clone, begun in `s₁`, has come to `u`: the members `ms` were visited, with the
results `vs`, and fields with the names `names` were bound. -/
structure Filling (cl : Cloner) (s s₁ : Session) (d : Draft) (names : List String) (body : Ty)
    (ms vs : List TypeId) (u : Session) : Prop where
  /-- Where the work has come to. -/
  site : Site s d names body u
  /-- What led there. -/
  visits : cl.Visits (ChangesOnlyClone d.clone) s₁ ms vs u
  /-- The clone is still pending, as are those around it. -/
  pending : u.pending = s₁.pending
  /-- The clone is made of what was given. -/
  made : body.MadeOf vs

/-- The filling of a clone of a structure with the entry `e` was broken off. -/
structure BrokenOff (ctx : Context) (cl : Cloner) (s s₁ : Session) (d : Draft) (e : TypeEntry)
    (x : Stop) (u : Session) : Prop where
  /-- How this came about, and what the clone was made of then. -/
  stops : ∃ vs body,
    cl.Stops (ChangesOnlyClone d.clone) (Hindered ctx s e d.holder) s₁ e.ty.members vs x u ∧
    u.types.find d.clone = .ok (d.entry body) ∧ body.MadeOf vs
  /-- What was there at the beginning is there. -/
  keeps : s.Extends u
  /-- The clone is still pending, as are those around it. -/
  pending : u.pending = s₁.pending

namespace Filling

open Synth

variable {ctx : Context} {cl : Cloner} {s s₁ u w : Session} {d : Draft} {e : TypeEntry}
  {names names' : List String} {body body' : Ty} {ms vs post : List TypeId} {m : TypeId} {x : Stop}

/-- The work has gone on, and the clone may be made of more that was given. -/
theorem progress (h : Filling cl s s₁ d names body ms vs u) (hg : SiteProgress s d names' body' u w)
    (hmade : body'.MadeOf vs) : Filling cl s s₁ d names' body' ms vs w :=
  ⟨hg.site, .work h.visits hg.changes, hg.changes.pending.trans h.pending, hmade⟩

/-- The work is broken off if it is hindered. -/
theorem halts (h : Filling cl s s₁ d names body ms vs u) (part : ms <+: e.ty.members)
    (hx : x ≠ .unending) (hindrance : Hindrance ctx s e d.holder vs u) :
    BrokenOff ctx cl s s₁ d e x u :=
  ⟨⟨vs, body, .work part h.visits ⟨hx, hindrance⟩, h.site.clone_entry, h.made⟩, h.site.keeps,
    h.pending⟩

/-- One more member is visited. -/
theorem visit (h : Filling cl s s₁ d names body ms vs u) (hcl : cl.Keeps) (stamp : Stamp)
    (split : e.ty.members = ms ++ m :: post) :
    Ends (cl stamp m) u
      (fun v w => Filling cl s s₁ d names body (ms ++ [m]) (vs ++ [v]) w ∧ u.Extends w)
      (BrokenOff ctx cl s s₁ d e) := by
  rw [ends_iff]
  constructor
  · intro v w hv
    have hgives : cl.Gives u m v w := ⟨stamp, hv⟩
    obtain ⟨hx, hp, -⟩ := hcl.gives hgives
    exact ⟨⟨h.site.of_extends hx, .visit h.visits hgives, hp.trans h.pending,
      h.made.mono (List.subset_append_left _ _)⟩, hx⟩
  · intro x w hx
    have hbreaks : cl.Breaks u m x w := ⟨stamp, hx⟩
    obtain ⟨hext, hp, -⟩ := hcl.breaks hbreaks
    exact ⟨⟨vs, body, .call split h.visits hbreaks, hext.find_type h.site.clone_entry, h.made⟩,
      h.site.keeps.trans hext, hp.trans h.pending⟩

/-- What a field of type `ty` is declared as keeps that type. -/
theorem ends_fieldDeclaration (plan : FieldPlan) (f : Field) (ty : TypeId) :
    Ends (fieldDeclaration plan f ty) u (fun d v => d.ty = some ty ∧ v = u)
      fun x v => x ≠ .unending ∧ v = u ∧
        ∃ id, f.symbol = some id ∧ u.symbols.symbols.size ≤ id.index := by
  unfold fieldDeclaration
  cases f.symbol with
  | none => exact ends_pure.2 ⟨rfl, rfl⟩
  | some id =>
    refine ends_bind.2 (ends_symbol.2 ⟨fun named _ => ?_, fun hid => ?_⟩)
    · exact ends_pure.2 ⟨rfl, rfl⟩
    · exact ⟨by simp, rfl, id, rfl, hid⟩

/-- Only a record field whose type failed to resolve is declared with another type. -/
theorem ends_specializeField (kind : StructureKind) (declaration : Declaration) (e : TypeEntry) :
    Ends (specializeField kind declaration e) u
      (fun r v => v = u ∧
        r.2.ty = if e.ty = .semanticError ∧ kind = .record then some Builtin.never
          else declaration.ty)
      fun x v => x ≠ .unending ∧ v = u ∧ e.ty.isInvokable ∧
        ∃ id, e.symbol = some id ∧ u.symbols.symbols.size ≤ id.index := by
  unfold specializeField
  refine ends_bind.2 (Ends.imp
    (Q := fun o v => v = u ∧ (e.ty = .semanticError → o = none)) ?_ ?_ fun _ _ he => he)
  · unfold functionTypeSymbol?
    split
    · rename_i id hty hid
      refine ends_bind.2 (ends_symbol.2 ⟨fun named _ => ?_, fun hmissing => ?_⟩)
      · exact ends_pure.2 ⟨rfl, fun hfailed => by simp_all⟩
      · exact ⟨by simp, rfl, by simp [hty, Ty.isInvokable], id, hid, hmissing⟩
    · exact ends_pure.2 ⟨rfl, fun _ => rfl⟩
  · rintro o v ⟨rfl, ho⟩
    cases o with
    | none =>
      dsimp only
      split <;> exact ends_pure.2 ⟨rfl, rfl⟩
    | some r =>
      have hne : ¬(e.ty = .semanticError ∧ kind = .record) := fun hty => by simpa using ho hty.1
      exact ends_pure.2 ⟨rfl, by rw [if_neg hne]⟩

/-- **One field is built**: its type is visited, and its name is new. -/
theorem buildField {plan : FieldPlan} {fields : FieldMap} {pre post : List Field} {f : Field}
    (h : Filling cl s s₁ d (pre.map (·.name)) body (pre.map (·.ty)) vs u) (hcl : cl.Keeps)
    (himmutable : plan.immutable = true) (hholder : plan.holder = d.holder)
    (hkind : plan.kind = d.kind) (hfields : e.ty.fields? = some fields)
    (split : fields.values = pre ++ f :: post)
    (hmembers : fields.values.map (·.ty) <+: e.ty.members) :
    Ends (buildField ctx (some cl) plan f) u
      (fun f' w => f.name ∉ pre.map (·.name) ∧ u.types.Grows w.types ∧
        u.symbols.symbols.size ≤ w.symbols.symbols.size ∧
        (∃ x, f'.symbol = some x ∧ x.index < w.symbols.symbols.size) ∧
        ∃ v, Filling cl s s₁ d ((pre ++ [f]).map (·.name)) body ((pre ++ [f]).map (·.ty))
            (vs ++ [v]) w ∧
          FieldBuilt s.types w.types d.kind f v f')
      (BrokenOff ctx cl s s₁ d e) := by
  obtain ⟨rest, hrest⟩ := hmembers
  have hf : f ∈ fields.values := by simp [split]
  have hsplit : e.ty.members = pre.map (·.ty) ++ f.ty :: (post.map (·.ty) ++ rest) := by
    simp [← hrest, split]
  have part : pre.map (·.ty) ++ [f.ty] <+: e.ty.members :=
    ⟨post.map (·.ty) ++ rest, by simp [hsplit]⟩
  unfold Synth.buildField fieldType
  rw [himmutable, if_pos rfl]
  refine ends_bind.2 ((h.visit hcl _ hsplit).imp ?_ fun _ _ he => he)
  rintro v u₁ ⟨h₁, hext⟩
  have hv : v ∈ vs ++ [v] := by simp
  refine ends_bind.2 ((ends_fieldDeclaration plan f v).imp ?_ ?_)
  swap
  · rintro x w ⟨hx, rfl, id, hid, hmissing⟩
    exact h₁.halts part hx
      (.fieldSymbol hfields hf hid (Nat.le_trans h₁.site.keeps.symbols.size_le hmissing))
  rintro declaration u₂ ⟨hty, rfl⟩
  -- what the variant stands for decides whether the field degrades
  refine ends_bind.2 (ends_reading.2 ⟨fun base himplied => ?_, fun x hx => ?_⟩)
  swap
  · exact h₁.halts part (fun hne => impliedWithin_ne_unending _ _ _ (hne ▸ hx))
      (.illegible hv (Session.not_legible_of_implied hx))
  refine ends_bind.2 (ends_reading.2 ⟨fun e' he' => ?_, fun x hx => ?_⟩)
  swap
  · exact h₁.halts part (fun hne => find_ne_unending _ _ (hne ▸ hx))
      (.illegible hv (Session.not_legible_of_find himplied hx))
  have hfailed := TypeTable.failed_iff himplied he'
  refine ends_bind.2 ((ends_specializeField plan.kind declaration e').imp ?_ ?_)
  swap
  · rintro x w ⟨hx, rfl, hinvokable, id, hid, hmissing⟩
    exact h₁.halts part hx
      (.illegible hv (Session.not_legible_of_symbol himplied he' hinvokable hid hmissing))
  rintro ⟨kind, declared⟩ u₃ ⟨rfl, hdeclared⟩
  obtain ⟨ty', hty'⟩ : ∃ ty', declared.ty = some ty' := by
    rw [hty] at hdeclared
    rw [hdeclared]
    split <;> exact ⟨_, rfl⟩
  -- the field gets a symbol, which is bound in the scope of the clone
  refine ends_bind.2 ((h₁.site.progress.addSymbol kind declared).imp ?_ fun _ _ he => he)
  rintro id u₄ ⟨hg₄, hid, htypes₄⟩
  refine ends_bind.2 ((ends_of_ok (typeOf_eq hid hty')).2 ?_)
  rw [hholder]
  refine ends_bind.2 (hg₄.bindName.imp ?_ ?_)
  swap
  · rintro x w ⟨hx, rfl, hbound⟩
    refine (h₁.progress hg₄ h₁.made).halts part hx (.nameTwice hfields fun hnodup => ?_)
    rw [split, List.map_append, List.nodup_append] at hnodup
    exact hnodup.2.2 f.name hbound f.name (by simp) rfl
  rintro - u₅ ⟨hnew, hg₅, hsymbols₅, htypes₅⟩
  have htypes : u₅.types = u₃.types := htypes₅.trans htypes₄
  have hlt := (Array.getElem?_eq_some_iff.1 (SymbolTable.find_eq_ok_iff.1 hid)).1
  refine ends_pure.2 ⟨hnew, by rw [htypes]; exact hext.types, ?_,
    ⟨id, rfl, by rw [hsymbols₅]; exact hlt⟩, v, ?_, ?_⟩
  · rw [hsymbols₅]
    exact Nat.le_trans hext.symbols.size_le hg₄.changes.symbols
  · simpa using h₁.progress hg₅ h₁.made
  rw [htypes]
  rw [hty, hkind] at hdeclared
  by_cases hdegrade : e'.ty = .semanticError ∧ d.kind = .record
  · rw [if_pos hdegrade, hty'] at hdeclared
    exact .degraded rfl hdegrade.2 (hfailed.2 hdegrade.1) (Option.some.inj hdeclared)
  · rw [if_neg hdegrade, hty'] at hdeclared
    refine .variant rfl (Option.some.inj hdeclared) fun hrecord hf => hdegrade ⟨?_, hrecord⟩
    exact hfailed.1 (hf.grows h₁.site.keeps.types)

end Filling

/-! ## All fields -/

/-- The fields `fs'` were built after the templates `fs`, whose types have the variants `vs`. -/
structure FieldsBuilt (S T : TypeTable) (kind : StructureKind) (fs : List Field) (vs : List TypeId)
    (fs' : List Field) : Prop where
  /-- Every template has a variant. -/
  length : fs.length = vs.length
  /-- Every field was built after its template. -/
  built : List.Forall₂ (fun p f' => FieldBuilt S T kind p.1 p.2 f') (fs.zip vs) fs'

namespace FieldsBuilt

variable {S T U : TypeTable} {kind : StructureKind} {fs fs' : List Field} {vs : List TypeId}

theorem nil : FieldsBuilt S T kind [] [] [] := ⟨rfl, .nil⟩

theorem mono (hT : ∀ ty, T.Failed ty → U.Failed ty) (h : FieldsBuilt S T kind fs vs fs') :
    FieldsBuilt S U kind fs vs fs' :=
  ⟨h.length, h.built.imp fun _ _ hb => hb.mono hT⟩

theorem snoc {f f' : Field} {v : TypeId} (h : FieldsBuilt S T kind fs vs fs')
    (hb : FieldBuilt S T kind f v f') :
    FieldsBuilt S T kind (fs ++ [f]) (vs ++ [v]) (fs' ++ [f']) := by
  refine ⟨by simp [h.length], ?_⟩
  rw [List.zip_append h.length]
  exact List.rel_append h.built (.cons hb .nil)

theorem names_eq (h : FieldsBuilt S T kind fs vs fs') :
    fs'.map (·.name) = fs.map (·.name) := by
  obtain ⟨hlength, hbuilt⟩ := h
  induction fs generalizing vs fs' with
  | nil =>
    cases hbuilt
    rfl
  | cons f fs ih =>
    cases vs with
    | nil => simp at hlength
    | cons v vs =>
      cases hbuilt with
      | cons hb hrest =>
        rw [List.map_cons, List.map_cons, hb.name_eq, ih (by simpa using hlength) hrest]

/-- The fields have the variants for their types, or are without values. -/
theorem ty_mem (h : FieldsBuilt S T kind fs vs fs') {m : TypeId} (hm : m ∈ fs'.map (·.ty)) :
    m = Builtin.never ∨ m ∈ vs := by
  obtain ⟨hlength, hbuilt⟩ := h
  induction fs generalizing vs fs' with
  | nil =>
    cases hbuilt
    simp at hm
  | cons f fs ih =>
    cases vs with
    | nil => simp at hlength
    | cons v vs =>
      cases hbuilt with
      | cons hb hrest =>
        rcases List.mem_cons.1 hm with rfl | hm
        · exact hb.ty_eq.imp_right fun hty => by simp [hty]
        · exact (ih hm (by simpa using hlength) hrest).imp_right (List.mem_cons_of_mem v)

end FieldsBuilt

/-- Fields with different names are kept in a map as they are. -/
theorem values_ofList {fs : List Field} (h : (fs.map (·.name)).Nodup) :
    (OrderedMap.ofList (fs.map fun f => (f.name, f))).values = fs ∧
      (OrderedMap.ofList (fs.map fun f => (f.name, f))).keys = fs.map (·.name) := by
  have hkeys : ((fs.map fun f => (f.name, f)).map Prod.fst).Nodup := by
    rw [List.map_map]
    exact h
  unfold OrderedMap.values OrderedMap.keys
  rw [OrderedMap.entries_ofList hkeys, List.map_map, List.map_map]
  exact ⟨List.map_id fs, rfl⟩

namespace Filling

open Synth

variable {ctx : Context} {cl : Cloner} {s s₁ u w : Session} {d : Draft} {e : TypeEntry}
  {names : List String} {body : Ty} {ms vs : List TypeId}

/-- The source can be referred to by the name of its symbol. -/
theorem ends_sourceReference {E : Stop → Session → Prop} {source : TypeId} {x : SymbolId}
    (span : Span) (he : u.types.find source = .ok e) (hx : e.symbol = some x)
    (hlt : x.index < u.symbols.symbols.size) :
    Ends (sourceReference span source) u (fun _ v => v = u) E := by
  unfold sourceReference
  refine ends_bind.2 ((ends_of_ok (symbolOf_eq he hx)).2 ?_)
  refine ends_bind.2 (ends_symbol.2 ⟨fun named _ => ?_, fun h => absurd hlt (Nat.not_lt_of_le h)⟩)
  exact rfl

/-- The filling of a clone has come to `t`: the fields `fs'` were built after the templates `fs`,
under different names, and each of them has a symbol. -/
structure HasBuilt (cl : Cloner) (s s₁ : Session) (d : Draft) (body : Ty) (fs fs' : List Field)
    (vs : List TypeId) (t : Session) : Prop where
  /-- The types of the templates were visited. -/
  filling : Filling cl s s₁ d (fs.map (·.name)) body (fs.map (·.ty)) vs t
  /-- Every field was built after its template. -/
  built : FieldsBuilt s.types t.types d.kind fs vs fs'
  /-- The names are different. -/
  nodup : (fs.map (·.name)).Nodup
  /-- The symbols are there. -/
  named : ∀ f' ∈ fs', ∃ y, f'.symbol = some y ∧ y.index < t.symbols.symbols.size

/-- The templates are gone through in order. -/
theorem mapM_buildField {plan : FieldPlan} {fields : FieldMap}
    (h : Filling cl s s₁ d [] body [] [] u) (hcl : cl.Keeps) (himmutable : plan.immutable = true)
    (hholder : plan.holder = d.holder) (hkind : plan.kind = d.kind)
    (hfields : e.ty.fields? = some fields)
    (hmembers : fields.values.map (·.ty) <+: e.ty.members) :
    Ends (fields.values.mapM (Synth.buildField ctx (some cl) plan)) u
      (fun fs' t => ∃ vs, HasBuilt cl s s₁ d body fields.values fs' vs t)
      (BrokenOff ctx cl s s₁ d e) := by
  refine ends_mapM (I := fun fs fs' t => ∃ vs, HasBuilt cl s s₁ d body fs fs' vs t)
    ⟨[], h, .nil, .nil, by simp⟩ ?_
  rintro pre fs' f post t hsplit ⟨vs, hfilling, hbuilt, hnodup, hnamed⟩
  refine (hfilling.buildField hcl himmutable hholder hkind hfields hsplit hmembers).imp ?_
    fun _ _ he => he
  rintro f' t' ⟨hnew, hgrows, hsize, hsymbol, v, hfilling', hb⟩
  refine ⟨vs ++ [v], hfilling', ?_, ?_, ?_⟩
  · exact (hbuilt.mono fun _ hf => hf.grows hgrows).snoc hb
  · rw [List.map_append, List.nodup_append]
    refine ⟨hnodup, by simp, ?_⟩
    rintro a ha b hb rfl
    obtain rfl : a = f.name := by simpa using hb
    exact hnew ha
  · intro g hg
    rcases List.mem_append.1 hg with hg | hg
    · exact (hnamed g hg).imp fun _ hy => ⟨hy.1, Nat.lt_of_lt_of_le hy.2 hsize⟩
    · exact List.mem_singleton.1 hg ▸ hsymbol

/-- **All fields are built**, in order, under different names. -/
theorem buildFields {p : Population} {fields : FieldMap} {x : SymbolId}
    (h : Filling cl s s₁ d [] body [] [] u) (hcl : cl.Keeps)
    (himmutable : p.immutable = true) (htarget : p.target = d.clone)
    (hsource : s.types.find p.source = .ok e) (hkind : e.ty.structureKind? = some d.kind)
    (hx : e.symbol = some x) (hlt : x.index < s.symbols.symbols.size)
    (hfields : e.ty.fields? = some fields)
    (hmembers : fields.values.map (·.ty) <+: e.ty.members) (node : StructureNode) :
    Ends (buildFields ctx (some cl) p node) u
      (fun node' w => node'.symbol = node.symbol ∧ node'.ty = node.ty ∧ ∃ vs fs',
        Filling cl s s₁ d (fields.values.map (·.name))
            (body.mapFields fun _ => .ofList (fs'.map fun f => (f.name, f)))
            (fields.values.map (·.ty)) vs w ∧
          FieldsBuilt s.types w.types d.kind fields.values vs fs' ∧
          (fields.values.map (·.name)).Nodup)
      (BrokenOff ctx cl s s₁ d e) := by
  have hclone := h.site.clone_entry
  have hsource' := h.site.keeps.find_type hsource
  have hne : p.source ≠ d.clone := by
    intro heq
    have hlt := TypeTable.lt_of_find hsource
    rw [heq] at hlt
    exact absurd h.site.clone_new (Nat.not_le_of_lt hlt)
  unfold Synth.buildFields
  rw [htarget]
  refine ends_bind.2 ((ends_of_ok (kindOf_eq hsource' hkind)).2 ?_)
  refine ends_bind.2 ((ends_of_ok (kindOf_eq hclone h.site.kind)).2 ?_)
  refine ends_bind.2 ((ends_of_ok (symbolOf_eq hclone rfl)).2 ?_)
  refine ends_bind.2 ((ends_of_ok (fieldsOf_eq hsource' hfields)).2 ?_)
  refine ends_bind.2 ((h.mapM_buildField hcl himmutable rfl rfl hfields hmembers).imp ?_
    fun _ _ he => he)
  rintro fs' t ⟨vs, hfilling, hbuilt, hnodup, hnamed⟩
  have hvalues := (values_ofList (hbuilt.names_eq ▸ hnodup)).1
  have hmade : (body.mapFields fun _ => .ofList (fs'.map fun f => (f.name, f))).MadeOf vs := by
    intro m hm
    rcases Ty.mem_members_mapFields hm with hm | hm
    · rw [hvalues] at hm
      exact hbuilt.ty_mem hm
    · exact hfilling.made m hm
  unfold setFields
  refine ends_bind.2 ((hfilling.site.progress.changeClone (by simp) ?_).imp ?_ fun _ _ he => he)
  · intro fields' hfields'
    have hbody : body.fields?.isSome := by
      rw [← Ty.structureKind?_isSome_iff, hfilling.site.kind]
      rfl
    obtain ⟨old, hold⟩ := Option.isSome_iff_exists.1 hbody
    rw [Ty.fields?_mapFields, hold] at hfields'
    obtain rfl := Option.some.inj hfields'
    rw [hvalues]
    exact hnamed
  intro _ w hprogress
  have hdone := hfilling.progress hprogress hmade
  have hbuilt' := hbuilt.mono fun _ hf => hfilling.site.failed hprogress.changes hf
  split
  · have hkept := hprogress.changes.kept _ _ hne (hfilling.site.keeps.find_type hsource)
    have hltw := Nat.lt_of_lt_of_le hlt hdone.site.keeps.symbols.size_le
    refine ends_bind.2 ((ends_sourceReference _ hkept hx hltw).imp ?_ fun _ _ he => he)
    rintro reference _ rfl
    exact ends_pure.2 ⟨rfl, rfl, vs, fs', hdone, hbuilt', hnodup⟩
  · exact ends_pure.2 ⟨rfl, rfl, vs, fs', hdone, hbuilt', hnodup⟩

end Filling

end StructuralTypes
