import Mathlib.Data.List.Nodup
import StructuralTypes.Proofs.Population.Recall
import StructuralTypes.Proofs.Population.Structure
import StructuralTypes.Proofs.Readonly.Shape

/-!
# Taking fields over twice

The fields of one source are taken over into one structure and then into another. The second time,
each variant that is asked for has been given before and is at hand, so nothing is made but the
fields themselves, and they become what they became the first time. Only their symbols are others.

This needs that a variant which was given stays at hand. It does not for a type in a circle of
references, if a variant is known for some other type on the circle: which end such a chain comes to
depends on how many types there are.

Results:
* `Synth.BuildsAll.again`: fields that are built twice are `Twins`.
* **`buildFields_again`**: structures that are filled from one source have the same fields, under
  symbols of their own.
* **`whirl_not_again`**: the condition on circles of references is needed.
-/

namespace StructuralTypes

/-- Two fields that are the same but for their symbols, and so are the symbols but for their
owners. -/
inductive Twins (S : SymbolTable) (f : Field) : Field → Prop
  | intro {x x' : SymbolId} {named : Symbol} {owner : Option SymbolId} (symbol : f.symbol = some x)
      (found : S.find x = .ok named) (found' : S.find x' = .ok { named with id := x', owner }) :
      Twins S f { f with symbol := some x' }

/-! ## What is asked for again -/

/-- In `w`, the same variants are known as in `t`, and there are the same types, except that
structures may have other fields. -/
structure Session.Recalls (t w : Session) : Prop where
  /-- The same clones are remembered. -/
  memo : w.memo = t.memo
  /-- The same clones are pending. -/
  pending : w.pending = t.pending
  /-- Only fields have changed. -/
  refields : t.types.Refields w.types
  /-- No types were added. -/
  size : w.types.entries.size = t.types.entries.size

namespace Session.Recalls

variable {t w w' : Session} {ty v : TypeId}

theorem of_eq (h : t.Recalls w) (hmemo : w'.memo = w.memo) (hpending : w'.pending = w.pending)
    (htypes : w'.types = w.types) : t.Recalls w' where
  memo := hmemo.trans h.memo
  pending := hpending.trans h.pending
  refields := htypes ▸ h.refields
  size := htypes ▸ h.size

theorem known?_eq (h : t.Recalls w) (k : TypeId) : w.known? k = t.known? k := by
  unfold known?
  rw [h.memo, h.pending]

/-- What was at hand still is, and nothing else is. -/
theorem atHand (h : t.Recalls w) (hw : w.AtHand ty v) : t.AtHand ty v :=
  hw.of_alike (fun k => (h.known?_eq k).symm) (fun k => (h.refields.isReadonly_eq h.size k).symm)
    fun k => (h.refields.implied_eq h.size k).symm

/-- What was not open is not. -/
theorem not_open (h : t.Recalls w) (hn : ¬t.Open ty) : ¬w.Open ty := by
  rintro ⟨base, e, unfolds, unknown, base_unknown⟩
  obtain ⟨e', he'⟩ := h.refields.unfolds h.size unfolds
  exact hn ⟨base, e', he', (h.known?_eq ty).symm.trans unknown,
    (h.known?_eq base).symm.trans base_unknown⟩

/-- Filling a structure changes its fields only. -/
theorem fill {e : TypeEntry} (he : t.types.find ty = .ok e) (fields : List Field)
    (package : Package) :
    t.Recalls { t with
      package, types := ⟨t.types.entries.setIfInBounds ty.index (e.withFields fields)⟩ } where
  memo := rfl
  pending := rfl
  refields := .set he _
  size := Array.size_setIfInBounds

end Session.Recalls

/-! ## Fields that are built again -/

section Fields

variable {ctx ctx' : Context} {cloner cloner' : Option Cloner} {plan plan' : FieldPlan}
  {s t u w w' : Session} {f f₁ f₂ : Field} {ty v v' : TypeId}

/-- A type that is given to a field is its variant at hand, or the type itself. -/
def FieldPlan.Tells (plan : FieldPlan) (s : Session) (ty v : TypeId) : Prop :=
  if plan.immutable then s.AtHand ty v else v = ty

theorem Synth.tells_of_fieldType (hcl : ∀ cl ∈ cloner, cl.Searches)
    (h : fieldType ctx cloner plan ty s = .ok v u) : plan.Tells u ty v := by
  unfold FieldPlan.Tells
  rcases fieldType_cases hcl h with ⟨hplain, rfl, -⟩ | ⟨hreadonly, ctx', n, hgives⟩
  · rw [hplain, if_neg Bool.false_ne_true]
  · rw [if_pos hreadonly]
    exact atHand_of_gives hgives

/-- Nothing is made for a field whose variant is at hand. -/
theorem Synth.eq_of_fieldType (hcl : ∀ cl ∈ cloner, cl.Searches)
    (h : fieldType ctx cloner plan ty s = .ok v u) (hn : plan.immutable → ¬s.Open ty) : u = s := by
  rcases fieldType_cases hcl h with ⟨-, -, hu⟩ | ⟨hreadonly, ctx', n, hgives⟩
  · exact hu
  · exact (atHand_of_not_open hgives (hn hreadonly)).1

/-- A variant that was given is not missing later. -/
theorem FieldPlan.Tells.not_open (h : plan.Tells u ty v) (hut : u.Preserves t)
    (htw : t.Recalls w) (hreadonly : plan.immutable) : ¬w.Open ty := by
  unfold Tells at h
  rw [if_pos hreadonly] at h
  exact htw.not_open fun ⟨base, e, ho⟩ => h.not_open ⟨base, e, hut.knows.opens ho⟩

/-- What is told for a field is told again. -/
theorem FieldPlan.Tells.agree (h : plan.Tells u ty v) (h' : plan'.Tells w ty v')
    (hplan : plan'.immutable = plan.immutable) (hs : plan.immutable → s.KnowsEnds ty)
    (hsu : s.Preserves u) (hut : u.Preserves t) (htw : t.Recalls w) : v = v' := by
  unfold Tells at h h'
  rw [hplan] at h'
  split at h
  · rename_i hreadonly
    rw [if_pos hreadonly] at h'
    exact Session.AtHand.agree (hs hreadonly) hsu hut h (htw.atHand h')
  · rename_i hplain
    rw [if_neg hplain] at h'
    exact h.trans h'.symm

/-- A field that is built again, with the same type, becomes a twin. -/
theorem BuiltField.twins {S S' : SymbolTable} (h : BuiltField u.symbols u.types S plan f v f₁)
    (h' : BuiltField w.symbols w.types S' plan' f v f₂) (hut : u.Preserves t) (htw : t.Recalls w)
    (hsymbols : Grows t.symbols.symbols w.symbols.symbols) (hS : Grows S.symbols S'.symbols)
    (hfound : ∀ a b, u.types.RefersTo a b → ∃ e, u.types.find b = .ok e)
    (hplan : plan' = { plan with holder := plan'.holder, span := plan'.span }) :
    Twins S' f₁ f₂ := by
  obtain @⟨k, d, ty, x, declares, typed, -, found⟩ := h
  obtain @⟨k', d', ty', x', declares', typed', -, found'⟩ := h'
  obtain ⟨rfl, rfl⟩ : k' = k ∧ d' = { d with owner := some plan'.holder } :=
    declares.agree declares'
      (fun x named hx => SymbolTable.find_mono (hut.symbols.trans hsymbols) hx)
      ((TypeTable.Refields.of_grows hut.types).trans htw.refields)
      (fun a b hr => hut.same.symm.refersTo ((htw.refields.refersTo_iff htw.size).1 hr)) hfound
        hplan
  obtain rfl : ty = ty' := Option.some.inj (typed.symm.trans typed')
  exact .intro rfl (SymbolTable.find_mono hS found) found'

/-- What corresponds to the same list corresponds. -/
theorem forall₂_of_left {α β γ : Type} {R : α → β → Prop} {R' : α → γ → Prop} {P : β → γ → Prop}
    {l : List α} {l₁ : List β} {l₂ : List γ} (h : List.Forall₂ R l l₁) (h' : List.Forall₂ R' l l₂)
    (hP : ∀ a b c, R a b → R' a c → P b c) : List.Forall₂ P l₁ l₂ := by
  induction h generalizing l₂ with
  | nil =>
    cases h'
    exact .nil
  | cons hb _ ih =>
    cases h' with
    | cons hc hrest => exact .cons (hP _ _ _ hb hc) (ih hrest)

/-- After fields were built, nothing has to be made for them again. -/
theorem Synth.BuildsAll.not_open {fs fields : List Field} (hcl : ∀ cl ∈ cloner, cl.Searches)
    (h : BuildsAll ctx cloner plan fs s fields t) (htw : t.Recalls w) (hreadonly : plan.immutable)
    (hf : f ∈ fs) : ¬w.Open f.ty := by
  have hall := (h.builtFields (P := fun _ => True) hcl trivial fun _ _ _ _ _ _ _ => trivial).2
  obtain ⟨f', -, s', v, u, -, -, type, hut, -⟩ := forall₂_exists hall hf
  exact (tells_of_fieldType hcl type).not_open hut htw hreadonly

/-- If nothing has to be made for fields, the scope that their names are bound in is there. -/
theorem Synth.BuildsAll.exists_bindings_of_not_open {fs fields : List Field}
    (hcl : ∀ cl ∈ cloner, cl.Searches) (h : BuildsAll ctx cloner plan fs s fields t)
    (hn : plan.immutable → ∀ f ∈ fs, ¬s.Open f.ty) (hne : fs ≠ []) :
    ∃ m, s.symbols.bindings? plan.holder = some m := by
  obtain ⟨f, fs, rfl⟩ := List.exists_cons_of_ne_nil hne
  obtain ⟨v, u, m, type, hm⟩ := h.bindings?_of_cons
  obtain rfl := eq_of_fieldType hcl type fun hreadonly => hn hreadonly _ List.mem_cons_self
  exact ⟨m, hm⟩

/-- **Fields that are built twice are twins.** -/
theorem Synth.BuildsAll.again {fs fields fields' : List Field} (hcl : ∀ cl ∈ cloner, cl.Searches)
    (hcl' : ∀ cl ∈ cloner', cl.Searches) (h : BuildsAll ctx cloner plan fs s fields t)
    (h' : BuildsAll ctx' cloner' plan' fs w fields' w')
    (hplan : plan' = { plan with holder := plan'.holder, span := plan'.span }) (htw : t.Recalls w)
    (hsymbols : Grows t.symbols.symbols w.symbols.symbols)
    (hfound : ∀ a b, s.types.RefersTo a b → ∃ e, s.types.find b = .ok e)
    (hends : plan.immutable → ∀ f ∈ fs, s.KnowsEnds f.ty) :
    List.Forall₂ (Twins w'.symbols) fields fields' := by
  have himmutable : plan'.immutable = plan.immutable := by rw [hplan]
  have hfirst := (h.builtFields (P := fun _ => True) hcl trivial fun _ _ _ _ _ _ _ => trivial).2
  -- the variants that were given are at hand, so nothing is made but the fields
  have hshut : ∀ f ∈ fs, ∀ w₁, t.Recalls w₁ → plan'.immutable → ¬w₁.Open f.ty :=
    fun f hf w₁ hw₁ hreadonly => h.not_open hcl hw₁ (himmutable ▸ hreadonly) hf
  have hsecond := (h'.builtFields (P := t.Recalls) hcl' htw fun f hf f' w₁ w₂ hw₁ hb => by
    obtain ⟨type, -, -, -⟩ := hb
    obtain rfl := eq_of_fieldType hcl' type (hshut f hf w₁ hw₁)
    exact hw₁.of_eq rfl rfl rfl).2
  have hfirst' := (List.forall₂_and_left fs fields).2 ⟨fun f hf => hf, hfirst⟩
  refine forall₂_of_left hfirst' hsecond ?_
  rintro f f₁ f₂ ⟨hf, s', v, u, -, hs', type, hut, hb⟩ ⟨w₁, v', u', hw₁, hww₁, type', hu', hb'⟩
  obtain rfl := eq_of_fieldType hcl' type' (hshut f hf w₁ hw₁)
  have hsu := hs'.trans (preserves_of_fieldType hcl type).1
  obtain rfl := (tells_of_fieldType hcl type).agree (tells_of_fieldType hcl' type') himmutable
    (fun hreadonly => hends hreadonly f hf) hsu hut hw₁
  have hgrown : Grows t.symbols.symbols u'.symbols.symbols := hsymbols.trans hww₁.symbols
  refine hb.twins hb' hut hw₁ hgrown (hgrown.trans hu'.symbols) (fun a b hr => ?_) hplan
  obtain ⟨e, he⟩ := hfound a b (hsu.same.symm.refersTo hr)
  exact ⟨e, hsu.types.find he⟩

end Fields

/-! ## In a compilation -/

/-- The symbols of fields that were placed one after the other are all different. -/
theorem Placed.nodup_append {holder holder' : SymbolId} {S S₁ S₂ S' : SymbolTable}
    {fs fs' fields fields' : List Field} {xs xs' : List SymbolId}
    (h : Placed holder S S₁ fs fields xs) (h' : Placed holder' S₂ S' fs' fields' xs')
    (hS : S₁.symbols.size ≤ S₂.symbols.size) :
    ((fields ++ fields').map (·.symbol)).Nodup := by
  rw [List.map_append, h.symbols, h'.symbols, ← List.map_append]
  refine List.Nodup.map (fun _ _ => Option.some.inj) (h.distinct.append h'.distinct ?_)
  intro x hx hx'
  obtain ⟨named, hnamed, -⟩ := h.owned x hx
  have hlt := (Array.getElem?_eq_some_iff.1 (SymbolTable.find_eq_ok_iff.1 hnamed)).1
  have hge := h'.fresh x hx'
  omega

theorem ClosedTables.find_of_refersTo {b : Extent} {S : SymbolTable} {T : TypeTable}
    (h : ClosedTables b S T) {ty target : TypeId} (hr : T.RefersTo ty target) :
    ∃ e, T.find target = .ok e := by
  obtain ⟨e, he, htarget⟩ := hr
  have hin : Within b (Ty.ref target) := htarget ▸ (within_typeEntry.1 (h.within_entry he)).1
  obtain ⟨e', he', -⟩ := h.exists_type hin
  exact ⟨e', he'⟩

theorem fields?_withFields {e : TypeEntry} {kind : StructureKind}
    (h : e.ty.structureKind? = some kind) (fields : List Field) :
    (e.withFields fields).ty.fields? = some (.ofList (fields.map fun f => (f.name, f))) := by
  have hsome : e.ty.fields?.isSome := by
    rw [← Ty.structureKind?_isSome_iff, h]
    rfl
  obtain ⟨old, hold⟩ := Option.isSome_iff_exists.1 hsome
  rw [TypeEntry.withFields, Ty.fields?_mapFields, hold]
  rfl

/-- The types of the fields of a structure, in order. -/
def TypeEntry.fieldTypes? (e : TypeEntry) : Option (List TypeId) :=
  e.ty.fields?.map fun fields => fields.values.map (·.ty)

namespace Compilation

/-- Two structures have the same fields, in one order and under the same keys, and no symbol belongs
to two of them. -/
def Twinned (c : Compilation) (ty ty' : TypeId) : Prop :=
  ∃ e e' fields fields', c.types.find ty = .ok e ∧ e.ty.fields? = some fields ∧
    c.types.find ty' = .ok e' ∧ e'.ty.fields? = some fields' ∧ fields'.keys = fields.keys ∧
      List.Forall₂ (Twins c.symbols) fields.values fields'.values ∧
      ((fields.values ++ fields'.values).map (·.symbol)).Nodup

/-- **Structures that are filled from one source have the same fields**, under symbols of their own,
if no field of the source leads into a circle of references where a variant is known. -/
theorem buildFields_again (c c₁ c₂ : Compilation) (env env' : Environment) (memo : Option Nat)
    (pending : Nat) (p : Population) (target' : TypeId) (span' : Span) (position position' : Nat)
    (source target other : TypeEntry) (templates : FieldMap) (hc : c.Closed)
    (hsource : c.types.find p.source = .ok source) (htemplates : source.ty.fields? = some templates)
    (htarget : c.types.find p.target = .ok target) (hother : c.types.find target' = .ok other)
    (hkind : other.ty.structureKind? = target.ty.structureKind?) (hne : target' ≠ p.target)
    (hfilled : p.target ≠ p.source)
    (hends : p.immutable → ∀ f ∈ templates.values,
      (c.bare ⟨memo.getD 0, pending⟩).KnowsEnds f.ty)
    (hr : buildFields env memo pending p position c = .ok () c₁)
    (hr' : buildFields env' memo pending { p with target := target', span := span' } position' c₁ =
      .ok () c₂) : c₂.Twinned p.target target' := by
  obtain ⟨_, _, package, _, t, -, -, -, hdone, hc₁⟩ := buildFields_eq_ok_iff.1 hr
  obtain ⟨_, _, package', _, t', -, -, -, hdone', hc₂⟩ := buildFields_eq_ok_iff.1 hr'
  have hcl := searches_cloner? memo.isSome ⟨c.settings, env.scopeOwner⟩
  have hcl' := searches_cloner? memo.isSome ⟨c₁.settings, env'.scopeOwner⟩
  -- the second time, the session is the one that was left, except for the package
  have hsession : c₁.session package' ⟨memo.getD 0, pending⟩ = { t with package := package' } := by
    rw [hc₁]
    exact session_keep c env.package ⟨memo.getD 0, pending⟩ t package'
  rw [hsession] at hdone'
  have htables := hc.tables
  obtain @⟨source₁, target₁, templates₁, kind, holder, built, u, _, hsource₁, htemplates₁, htarget₁,
    hkind₁, hholder, builds, -⟩ := hdone
  obtain rfl := Except.ok.inj (hsource.symm.trans hsource₁)
  obtain rfl := Except.ok.inj (htarget.symm.trans htarget₁)
  obtain rfl := Option.some.inj (htemplates.symm.trans htemplates₁)
  have hu := builds.preserves hcl
  have hsource_left := TypeTable.find_set_of_ne hfilled.symm (target.withFields built)
    (hu.types.find hsource)
  have hother_left := TypeTable.find_set_of_ne hne (target.withFields built) (hu.types.find hother)
  obtain @⟨source₂, other₂, templates₂, kind', holder', built', u', _, hsource₂, htemplates₂,
    hother₂, hkind₂, hholder', builds', -⟩ := hdone'
  obtain rfl := Except.ok.inj (hsource_left.symm.trans hsource₂)
  obtain rfl := Except.ok.inj (hother_left.symm.trans hother₂)
  obtain rfl := Option.some.inj (htemplates.symm.trans htemplates₂)
  obtain rfl := Option.some.inj (hkind₁.symm.trans (hkind.symm.trans hkind₂))
  have hrecalls := Session.Recalls.fill (hu.types.find htarget) built package'
  have hscope := builds.exists_bindings hcl htables (htables.within_symbolOf htarget hholder)
  have hscope' := builds'.exists_bindings_of_not_open hcl' fun hreadonly _ =>
    builds.not_open hcl hrecalls hreadonly
  have htwins := builds.again hcl hcl' builds' rfl hrecalls (.refl _)
    (fun _ _ => htables.find_of_refersTo) hends
  obtain ⟨xs, hplaced⟩ := builds.placed hcl hscope
  obtain ⟨xs', hplaced'⟩ := builds'.placed hcl' hscope'
  obtain ⟨hvalues, hkeys⟩ := builds.values_ofList hcl hscope
  obtain ⟨hvalues', hkeys'⟩ := builds'.values_ofList hcl' hscope'
  have hfirst := TypeTable.find_set_self (hu.types.find htarget) (target.withFields built)
  have hu' := (builds'.preserves hcl').types
  rw [hc₂]
  refine ⟨target.withFields built, other.withFields built',
    .ofList (built.map fun f => (f.name, f)),
    .ofList (built'.map fun f => (f.name, f)),
    TypeTable.find_set_of_ne hne.symm _ (hu'.find hfirst), fields?_withFields hkind₁ built,
    TypeTable.find_set_self (hu'.find hother_left) _, fields?_withFields hkind₂ built',
    hkeys'.trans hkeys.symm, ?_, ?_⟩
  · rw [hvalues, hvalues']
    exact htwins
  · rw [hvalues, hvalues']
    exact hplaced.nodup_append hplaced' (Nat.le_refl _)

/-- A record that contains itself, with a field whose type is rebuilt, and two empty records, which
have a scope each. -/
def brood : Compilation :=
  (app [("Full", ⟨14⟩), ("First", ⟨15⟩), ("Second", ⟨16⟩)]
    [appRecord ⟨1⟩ [("a", Builtin.any), ("b", ⟨14⟩)], appRecord ⟨2⟩ [], appRecord ⟨3⟩ []]).execute
    [.openScope ⟨2⟩, .openScope ⟨3⟩, .addNode (.record {})]

/-- The fields of the full record of `brood`, readonly, for the first empty one. -/
def broodFields : Population :=
  { target := ⟨15⟩, source := ⟨14⟩, package := ⟨0⟩, flags := .only .readonly, immutable := true }

theorem brood_again : ∃ c₁ c₂, buildFields ⟨0, ⟨0⟩⟩ (some 0) 0 broodFields 0 brood = .ok () c₁ ∧
    buildFields ⟨0, ⟨0⟩⟩ (some 0) 0 { broodFields with target := ⟨16⟩, span := {} } 0 c₁ =
      .ok () c₂ ∧ c₂.Twinned ⟨15⟩ ⟨16⟩ := by
  have hrun : answers? ((do
      buildFields ⟨0, ⟨0⟩⟩ (some 0) 0 broodFields 0
      buildFields ⟨0, ⟨0⟩⟩ (some 0) 0 { broodFields with target := ⟨16⟩, span := {} } 0) brood) =
      some () := by
    decide +kernel
  obtain ⟨c₂, hc₂⟩ := answers?_eq_some hrun
  obtain ⟨_, c₁, hfirst, hsecond⟩ := bind_eq_ok_iff.1 hc₂
  refine ⟨c₁, c₂, hfirst, hsecond, ?_⟩
  exact buildFields_again brood c₁ c₂ ⟨0, ⟨0⟩⟩ ⟨0, ⟨0⟩⟩ (some 0) 0 broodFields ⟨16⟩ {} 0 0
    (appRecord ⟨1⟩ [("a", Builtin.any), ("b", ⟨14⟩)]) (appRecord ⟨2⟩ []) (appRecord ⟨3⟩ []) _
    (by decide +kernel) rfl rfl rfl rfl rfl (by decide) (by decide)
    (fun _ _ _ _ k _ hk => absurd rfl hk) hfirst hsecond

theorem Twinned.types_eq {c : Compilation} {ty ty' : TypeId} {e e' : TypeEntry}
    (h : c.Twinned ty ty') (he : c.types.find ty = .ok e) (he' : c.types.find ty' = .ok e') :
    e'.fieldTypes? = e.fieldTypes? := by
  obtain ⟨d, d', fields, fields', hd, hfields, hd', hfields', -, htwins, -⟩ := h
  obtain rfl := Except.ok.inj (he.symm.trans hd)
  obtain rfl := Except.ok.inj (he'.symm.trans hd')
  suffices hsame : fields'.values.map (·.ty) = fields.values.map (·.ty) by
    rw [TypeEntry.fieldTypes?, TypeEntry.fieldTypes?, hfields, hfields', Option.map_some,
      Option.map_some, hsame]
  generalize fields.values = fs, fields'.values = fs' at htwins
  induction htwins with
  | nil => rfl
  | cons twins _ ih =>
    obtain ⟨-, -, -⟩ := twins
    rw [List.map_cons, List.map_cons, ih]

/-- A record one of whose fields leads into a circle of three references, in which two variants are
unfinished, and two empty records. -/
def whirl : Compilation :=
  (app [("Source", ⟨17⟩), ("First", ⟨18⟩), ("Second", ⟨19⟩)]
    [{ ty := .ref ⟨15⟩ }, { ty := .ref ⟨16⟩ }, { ty := .ref ⟨14⟩ },
      appRecord ⟨1⟩ [("x", ⟨14⟩), ("y", Builtin.any), ("z", Builtin.anydata)], appRecord ⟨2⟩ [],
      appRecord ⟨3⟩ []]).execute
    [.openScope ⟨2⟩, .openScope ⟨3⟩, .addNode (.record {}), .begin 0 ⟨15⟩ Builtin.int,
      .begin 0 ⟨16⟩ Builtin.string]

/-- The fields of the source of `whirl`, readonly, for the first empty record. -/
def whirlFields : Population :=
  { target := ⟨18⟩, source := ⟨17⟩, package := ⟨0⟩, immutable := true }

/-- **The condition on circles is needed.** -/
theorem whirl_not_again : whirl.Closed ∧ ∃ c₁ c₂,
    buildFields ⟨0, ⟨0⟩⟩ (some 0) 0 whirlFields 0 whirl = .ok () c₁ ∧
      buildFields ⟨0, ⟨0⟩⟩ (some 0) 0 { whirlFields with target := ⟨19⟩ } 0 c₁ = .ok () c₂ ∧
        ¬c₂.Twinned ⟨18⟩ ⟨19⟩ := by
  refine ⟨by decide +kernel, ?_⟩
  have hrun : answers? ((do
      buildFields ⟨0, ⟨0⟩⟩ (some 0) 0 whirlFields 0
      buildFields ⟨0, ⟨0⟩⟩ (some 0) 0 { whirlFields with target := ⟨19⟩ } 0
      let e ← reading (·.types.find ⟨18⟩)
      let e' ← reading (·.types.find ⟨19⟩)
      return decide (e'.fieldTypes? = e.fieldTypes?)) whirl) = some false := by
    decide +kernel
  obtain ⟨c, hc⟩ := answers?_eq_some hrun
  obtain ⟨_, c₁, hfirst, hfrom₁⟩ := bind_eq_ok_iff.1 hc
  obtain ⟨_, c₂, hsecond, hfrom₂⟩ := bind_eq_ok_iff.1 hfrom₁
  obtain ⟨e, _, hread, hfrom₃⟩ := bind_eq_ok_iff.1 hfrom₂
  obtain ⟨he, rfl⟩ := reading_eq_ok_iff.1 hread
  obtain ⟨e', _, hread', hfrom₄⟩ := bind_eq_ok_iff.1 hfrom₃
  obtain ⟨he', rfl⟩ := reading_eq_ok_iff.1 hread'
  refine ⟨c₁, _, hfirst, hsecond, fun htwinned => ?_⟩
  rw [decide_eq_true (htwinned.types_eq he he')] at hfrom₄
  cases hfrom₄

end Compilation

end StructuralTypes
