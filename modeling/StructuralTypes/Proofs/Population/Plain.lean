import StructuralTypes.Proofs.Population.Structure

/-!
# Taking fields over as they are

When the fields do not become readonly, no type is made, and the only thing that can go wrong is a
name: each needs a place in the scope of the target's symbol. In closed tables all that a field is
made of can be read, whatever its type is.

Results:
* `ClosedTables.exists_declares`: every field can be declared.
* `exists_buildsAll`: fields can be built whose names are new and all different.
* **`buildFields_plain`**: exactly when fields can be taken over as they are, and what they become.
-/

namespace StructuralTypes

/-! ## Every field can be declared -/

namespace TypeTable

variable {T : TypeTable} {ty : TypeId} {x : Stop}

/-- A chain of references stops only at a type that is not there. -/
theorem impliedWithin_eq_error {fuel : Nat} (h : T.impliedWithin fuel ty = .error x) :
    x = .dangling := by
  induction fuel generalizing ty with
  | zero => cases h
  | succ fuel ih =>
    rw [impliedWithin] at h
    cases hf : T.find ty with
    | error y =>
      rw [hf] at h
      exact Except.error.inj h ▸ find_eq_error hf
    | ok e =>
      simp only [hf, bind, Except.bind] at h
      split at h
      · exact ih h
      · cases h

end TypeTable

section Closed

variable {b : Extent} {S : SymbolTable} {T : TypeTable} (h : ClosedTables b S T)
include h

theorem ClosedTables.exists_implied {ty : TypeId} (hty : Within b ty) :
    ∃ base e, T.implied ty = .ok base ∧ T.find base = .ok e ∧ Within b e := by
  cases himplied : T.implied ty with
  | ok base =>
    have hbase := (sound_iff.1 (sound_implied h hty)).1 base himplied
    obtain ⟨e, he, hin⟩ := h.exists_type hbase
    exact ⟨base, e, rfl, he, hin⟩
  | error x =>
    obtain rfl := TypeTable.impliedWithin_eq_error himplied
    exact absurd himplied (sound_iff.1 (sound_implied h hty)).2

theorem ClosedTables.exists_describes {f : Field} (hf : Within b f) : ∃ o, S.Describes f o := by
  unfold SymbolTable.Describes
  cases hx : f.symbol with
  | none => exact ⟨none, .none⟩
  | some x =>
    obtain ⟨named, hnamed, -⟩ := h.exists_symbol (within_some.1 (hx ▸ (within_field.1 hf).2))
    exact ⟨some named, .some hnamed⟩

/-- Whatever the type is, it decides. -/
theorem ClosedTables.exists_shapes {e : TypeEntry} (he : Within b e) (kind : StructureKind)
    (d : Declaration) : ∃ k d', S.Shapes kind d e k d' := by
  by_cases hdegrade : e.ty = .semanticError ∧ kind = .record
  · exact ⟨_, _, .degraded hdegrade.1 hdegrade.2⟩
  by_cases hfunction : ∃ x named signature, e.ty.isInvokable ∧ e.symbol = some x ∧
      S.find x = .ok named ∧ named.functionType? = some signature
  · obtain ⟨x, named, signature, hi, hx, hnamed, hrepeats⟩ := hfunction
    exact ⟨_, _, .function hi hx hnamed hrepeats⟩
  refine ⟨_, _, .plain hdegrade fun hi x hx => ?_⟩
  obtain ⟨named, hnamed, -⟩ := h.exists_symbol (within_some.1 (hx ▸ (within_typeEntry.1 he).2))
  refine ⟨named, hnamed, Option.eq_none_iff_forall_ne_some.2 fun signature hrepeats => ?_⟩
  exact hfunction ⟨x, named, signature, hi, hx, hnamed, hrepeats⟩

/-- **Every field can be declared**, with its own type. -/
theorem ClosedTables.exists_declares {f : Field} (hf : Within b f) (plan : FieldPlan) :
    ∃ k d, Declares S T plan f f.ty k d := by
  obtain ⟨o, ho⟩ := h.exists_describes hf
  obtain ⟨base, e, himplied, he, hin⟩ := h.exists_implied (within_field.1 hf).1
  obtain ⟨k, d, hshapes⟩ := h.exists_shapes hin plan.kind (plan.inherit f f.ty o)
  exact ⟨k, d, ho, himplied, he, hshapes⟩

end Closed

/-! ## Plain runs -/

namespace Synth

variable {ctx : Context} {cloner : Option Cloner} {plan : FieldPlan} {f f' : Field}
  {fs fields : List Field} {s t : Session} {S : SymbolTable} {m : OrderedMap String SymbolId}

/-- No type is made for a plain field. -/
theorem Builds.types_eq (hplain : plan.immutable = false) (h : Builds ctx cloner plan f s f' t) :
    t.types = s.types := by
  obtain ⟨type, -, -, -⟩ := h
  rw [((fieldType_eq_ok_iff_of_plain hplain).1 type).2]

/-- A plain field can be built if it can be declared and its name is new. -/
theorem exists_builds (hplain : plan.immutable = false) {k : SymbolKind} {d : Declaration}
    (hd : Declares s.symbols s.types plan f f.ty k d)
    (hm : s.symbols.bindings? plan.holder = some m) (hnew : f.name ∉ m.keys) :
    ∃ f' t, Builds ctx cloner plan f s f' t := by
  obtain ⟨ty, hty⟩ := hd.exists_ty
  have hm' : (s.symbols.add k d).2.bindings? plan.holder = some m :=
    SymbolTable.bindings?_grows (s.symbols.grows_add k d) (.refl _) hm
  obtain ⟨symbols, hbinds⟩ := SymbolTable.exists_defineIn_iff.2 ⟨m, hm', hnew⟩
  exact ⟨_, _, .intro ((fieldType_eq_ok_iff_of_plain hplain).2 ⟨rfl, rfl⟩) hd hty hbinds⟩

/-- **Plain fields can be built whose names are new and all different.** -/
theorem exists_buildsAll (hcl : ∀ cl ∈ cloner, cl.Searches) (hplain : plan.immutable = false)
    (hS : Grows S.symbols s.symbols.symbols)
    (hd : ∀ f ∈ fs, ∃ k d, Declares S s.types plan f f.ty k d)
    (hm : s.symbols.bindings? plan.holder = some m) (hnew : ∀ f ∈ fs, f.name ∉ m.keys)
    (hnodup : (fs.map (·.name)).Nodup) : ∃ fields t, BuildsAll ctx cloner plan fs s fields t := by
  induction fs generalizing s m with
  | nil => exact ⟨[], s, .nil⟩
  | cons f fs ih =>
    rw [List.forall_mem_cons] at hd hnew
    rw [List.map_cons, List.nodup_cons] at hnodup
    obtain ⟨⟨k, d, hd⟩, hrest⟩ := hd
    have hgrow : ∀ x named, S.find x = .ok named → s.symbols.find x = .ok named :=
      fun x named hx => SymbolTable.find_mono hS hx
    obtain ⟨f', t, hfirst⟩ : ∃ f' t, Builds ctx cloner plan f s f' t :=
      exists_builds hplain (hd.grows hgrow) hm hnew.1
    have hnext := (hfirst.preserves hcl).symbols
    obtain ⟨x, -, -, -, -, -, -, hbound⟩ := hfirst.bound hcl hm
    have hnew' : ∀ g ∈ fs, g.name ∉ (m.insert f.name x).keys := by
      intro g hg hmem
      rcases OrderedMap.mem_keys_insert.1 hmem with hmem | hname
      · exact hnew.2 g hg hmem
      · exact hnodup.1 (List.mem_map.2 ⟨g, hg, hname⟩)
    obtain ⟨fields, u, hall⟩ :=
      ih (hS.trans hnext) (hfirst.types_eq hplain ▸ hrest) hbound hnew' hnodup.2
    exact ⟨f' :: fields, u, .cons hfirst hall⟩

/-- **What a plain field becomes, symbols of before tell**, if those that are there tell the
same. -/
theorem BuildsAll.builtFields_of_declares (hcl : ∀ cl ∈ cloner, cl.Searches)
    (hplain : plan.immutable = false) (h : BuildsAll ctx cloner plan fs s fields t)
    (hS : S.TellsSame s.symbols) (hsize : S.symbols.size ≤ s.symbols.symbols.size)
    (hd : ∀ f ∈ fs, ∃ k d, Declares S s.types plan f f.ty k d) :
    List.Forall₂ (fun f f' => BuiltField S s.types t.symbols plan f f.ty f') fs fields := by
  have hall := (h.builtFields (P := fun u => u.types = s.types) hcl rfl
    fun f _ f' s' t' hs' hf => (hf.types_eq hplain).trans hs').2
  refine ((List.forall₂_and_left fs fields).2 ⟨hd, hall⟩).imp ?_
  rintro f f' ⟨⟨k, d, hd⟩, s', v, u, htypes, hs', type, -, hb⟩
  obtain ⟨rfl, rfl⟩ := (fieldType_eq_ok_iff_of_plain hplain).1 type
  obtain ⟨declares, typed, new, found⟩ := hb
  rw [htypes] at declares
  obtain ⟨rfl, rfl⟩ := ((hd.tells hS).grows fun _ _ => hs'.find_symbol).unique declares
  exact ⟨hd, typed, Nat.le_trans hsize (Nat.le_trans hs'.symbols.size_le new), found⟩

/-- In closed tables, those of the beginning tell. -/
theorem BuildsAll.builtFields_of_plain {b : Extent} (hcl : ∀ cl ∈ cloner, cl.Searches)
    (hplain : plan.immutable = false) (h : BuildsAll ctx cloner plan fs s fields t)
    (htables : ClosedTables b s.symbols s.types) (hfs : ∀ f ∈ fs, Within b f) :
    List.Forall₂ (fun f f' => BuiltField s.symbols s.types t.symbols plan f f.ty f') fs fields :=
  h.builtFields_of_declares hcl hplain (.of_find fun _ _ hx => hx) (Nat.le_refl _)
    fun f hf => htables.exists_declares (hfs f hf) plan

end Synth

/-! ## In a compilation -/

namespace Compilation

/-- The fields of the source find a place in the target: the target has a symbol and, unless the
source has no fields, the symbol has a scope in which their names are new, and no two of them have
one name. -/
def Receives (c : Compilation) (p : Population) : Prop :=
  ∃ source target templates holder, c.types.find p.source = .ok source ∧
    source.ty.fields? = some templates ∧ c.types.find p.target = .ok target ∧
    target.ty.structureKind?.isSome ∧ target.symbol = some holder ∧
    (templates.values = [] ∨ ∃ m, c.symbols.bindings? holder = some m ∧
      (∀ f ∈ templates.values, f.name ∉ m.keys) ∧ (templates.values.map (·.name)).Nodup)

/-- In `c'`, the target has a field for each of the source in `c`, built with the field's own type
as the tables of `c` tell. -/
def TakenAsIs (c c' : Compilation) (p : Population) : Prop :=
  ∃ source target templates holder kind fields, c.types.find p.source = .ok source ∧
    source.ty.fields? = some templates ∧ c.types.find p.target = .ok target ∧
    target.ty.structureKind? = some kind ∧ target.symbol = some holder ∧
    c'.types.find p.target = .ok { target with ty := target.ty.mapFields fun _ => fields } ∧
    List.Forall₂
      (fun f f' => BuiltField c.symbols c.types c'.symbols (p.plan kind holder) f f.ty f')
      templates.values fields.values

section Plain

variable {c c' : Compilation} {env : Environment} {memo : Option Nat} {pending : Nat}
  {p : Population} {position : Nat} (hc : c.Closed)
include hc

/-- Fields that were taken over found a place. -/
theorem receives_of_buildFields (hr : buildFields env memo pending p position c = .ok () c') :
    c.Receives p := by
  obtain ⟨_, _, _, _, _, -, -, -, hdone, -⟩ := buildFields_eq_ok_iff.1 hr
  obtain @⟨source, target, templates, kind, holder, built, u, references, hsource, htemplates,
    htarget, hkind, hsymbol, builds, -⟩ := hdone
  have hcl := searches_cloner? memo.isSome ⟨c.settings, env.scopeOwner⟩
  refine ⟨source, target, templates, holder, hsource, htemplates, htarget, by rw [hkind]; rfl,
    hsymbol, or_iff_not_imp_left.2 fun hne => ?_⟩
  obtain ⟨m, hm⟩ :=
    builds.exists_bindings hcl hc.tables (hc.tables.within_symbolOf htarget hsymbol) hne
  exact ⟨m, hm, builds.names_new hcl hm⟩

variable (hplain : p.immutable = false)
include hplain

/-- Plain fields that find a place are taken over. -/
theorem exists_buildFields_of_receives {package : Package} {tree : TypeNode} {node : StructureNode}
    (hpackage : c.packages[env.package]? = some package) (htree : c.nodes[position]? = some tree)
    (hnode : tree.structure? = some node) (h : c.Receives p) :
    ∃ c', buildFields env memo pending p position c = .ok () c' := by
  obtain ⟨source, target, templates, holder, hsource, htemplates, htarget, hkind, hsymbol,
    hnames⟩ := h
  obtain ⟨kind, hkind⟩ := Option.isSome_iff_exists.1 hkind
  have hcl := searches_cloner? memo.isSome ⟨c.settings, env.scopeOwner⟩
  obtain ⟨built, u, builds⟩ : ∃ built u, Synth.BuildsAll ⟨c.settings, env.scopeOwner⟩
      (cloner? memo.isSome ⟨c.settings, env.scopeOwner⟩) (p.plan kind holder) templates.values
      (c.session package ⟨memo.getD 0, pending⟩) built u := by
    rcases hnames with hnone | ⟨m, hm, hnew, hnodup⟩
    · rw [hnone]
      exact ⟨[], _, .nil⟩
    · refine Synth.exists_buildsAll hcl hplain (.refl _) (fun f hf => ?_) hm hnew hnodup
      exact hc.tables.exists_declares (hc.tables.within_fieldsOf hsource htemplates f hf) _
  have hrefers : p.Refers u.symbols u.package.imports source [] := .unwanted fun h => by
    simp [hplain] at h
  exact ⟨_, buildFields_eq_ok_iff.2 ⟨tree, node, package, _, _, htree, hnode, hpackage,
    .intro hsource htemplates htarget hkind hsymbol builds hrefers, rfl⟩⟩

/-- The target has the plain fields that were taken over. -/
theorem takenAsIs_of_buildFields (hr : buildFields env memo pending p position c = .ok () c') :
    c.TakenAsIs c' p := by
  obtain ⟨_, _, _, _, _, -, -, -, hdone, rfl⟩ := buildFields_eq_ok_iff.1 hr
  obtain @⟨source, target, templates, kind, holder, built, u, references, hsource, htemplates,
    htarget, hkind, hsymbol, builds, -⟩ := hdone
  have hcl := searches_cloner? memo.isSome ⟨c.settings, env.scopeOwner⟩
  have htables := hc.tables
  have hscope := builds.exists_bindings hcl htables (htables.within_symbolOf htarget hsymbol)
  refine ⟨source, target, templates, holder, kind, .ofList (built.map fun f : Field => (f.name, f)),
    hsource, htemplates, htarget, hkind, hsymbol, ?_, ?_⟩
  · exact TypeTable.find_set_self ((builds.preserves hcl).types.find htarget)
      (target.withFields built)
  · rw [(builds.values_ofList hcl hscope).1]
    exact builds.builtFields_of_plain hcl hplain htables
      (htables.within_fieldsOf hsource htemplates)

end Plain

/-- **Fields are taken over as they are exactly if they find a place**; no type of a field stands in
the way. What each of them becomes, its type tells. -/
theorem buildFields_plain (c : Compilation) (env : Environment) (memo : Option Nat) (pending : Nat)
    (p : Population) (position : Nat) (hc : c.Closed)
    (hpackage : (Position.package env.package).Occupied c)
    (hnode : ∃ tree, c.nodes[position]? = some tree ∧ tree.structure?.isSome)
    (hplain : p.immutable = false) :
    ((∃ c', buildFields env memo pending p position c = .ok () c') ↔ c.Receives p) ∧
      ∀ c', buildFields env memo pending p position c = .ok () c' → c.TakenAsIs c' p := by
  obtain ⟨package, hpackage⟩ := Option.isSome_iff_exists.1 hpackage
  obtain ⟨tree, htree, hnode⟩ := hnode
  obtain ⟨node, hnode⟩ := Option.isSome_iff_exists.1 hnode
  refine ⟨⟨?_, ?_⟩, ?_⟩
  · exact fun ⟨c', hr⟩ => receives_of_buildFields hc hr
  · exact exists_buildFields_of_receives hc hplain hpackage htree hnode
  · exact fun c' hr => takenAsIs_of_buildFields hc hplain hr

/-- The fields of the full record of `nursery`, for the bare one. -/
def nurseryPlain : Population :=
  { target := ⟨15⟩, source := ⟨14⟩, package := ⟨0⟩, flags := .only .exported }

theorem nursery_plain : nursery.Receives nurseryPlain ∧
    ∃ c', buildFields ⟨0, ⟨0⟩⟩ none 0 nurseryPlain 0 nursery = .ok () c' ∧
      nursery.TakenAsIs c' nurseryPlain := by
  obtain ⟨hiff, htaken⟩ := buildFields_plain nursery ⟨0, ⟨0⟩⟩ none 0 nurseryPlain 0
    (by decide +kernel) (by decide) ⟨.record {}, by decide, rfl⟩ rfl
  have hrun : answers? (buildFields ⟨0, ⟨0⟩⟩ none 0 nurseryPlain 0 nursery) = some () := by
    decide +kernel
  obtain ⟨c', hc'⟩ := answers?_eq_some hrun
  exact ⟨hiff.1 ⟨c', hc'⟩, c', hc', htaken c' hc'⟩

end Compilation

end StructuralTypes
