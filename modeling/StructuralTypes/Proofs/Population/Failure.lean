import StructuralTypes.Proofs.Population.Structure
import StructuralTypes.Proofs.Readonly.Failure
import StructuralTypes.Proofs.Writing.Synthesis

/-!
# Fields that cannot be taken over

The fields of a target are built one by one, and only when all of them are there do they take the
place of those that the target has. So whatever stops the building, a type without a readonly
variant or a name that is taken, the target does not notice.

One thing is looked up later: the symbol of a source whose target refers to it. A record that is to
be taken over readonly has to have one, but when it turns out to have none, the fields of the target
have been replaced. `Population.Strands` says that this happens.

Results:
* **`ends_buildField`**: what its steps keep, building a field keeps, however it ends.
* `ends_buildFields`, `buildFields_of_strands`: how taking fields over fails.
* **`target_kept_iff`**: a failure leaves the target alone unless it shows too late.
* `orphan_replaced`: a failure that does.
-/

namespace StructuralTypes

/-- All fields of the source were built, in `u`, to be readonly fields of `target`; but the source
is a record without a symbol, so that `target` cannot refer to it. -/
inductive Population.Strands (p : Population) (ctx : Context) (cloner : Option Cloner)
    (s : Session) : TypeEntry → List Field → Session → Prop
  | intro {source target : TypeEntry} {templates : FieldMap} {kind : StructureKind}
      {holder : SymbolId} {fields : List Field} {u : Session} (immutable : p.immutable = true)
      (source_found : s.types.find p.source = .ok source)
      (record : source.ty.structureKind? = some .record) (unnamed : source.symbol = none)
      (templates_eq : source.ty.fields? = some templates)
      (target_found : s.types.find p.target = .ok target)
      (kind_eq : target.ty.structureKind? = some kind) (holder_eq : target.symbol = some holder)
      (builds : Synth.BuildsAll ctx cloner (p.plan kind holder) templates.values s fields u) :
      Strands p ctx cloner s target fields u

namespace Synth

variable {ctx : Context} {cloner : Option Cloner} {plan : FieldPlan} {f : Field} {fs : List Field}
  {p : Population} {node : StructureNode} {s t u : Session} {ty : TypeId} {x : Stop}

/-! ## Building fields -/

/-- **What its steps keep, building a field keeps**, however it ends. -/
theorem ends_buildField {I : Session → Prop}
    (type : Ends (fieldType ctx cloner plan f.ty) s (fun _ u => I u) fun _ u => I u)
    (add : ∀ u kind d, I u → I { u with symbols := (u.symbols.add kind d).2 })
    (bind : ∀ u y symbols, I u → u.symbols.defineIn plan.holder f.name y = .ok symbols →
      I { u with symbols }) :
    Ends (buildField ctx cloner plan f) s (fun _ u => I u) fun _ u => I u := by
  unfold buildField
  refine ends_bind.2 (type.imp (fun ty u hu => ?_) fun _ _ he => he)
  -- nothing is written until it is known what becomes of the field
  refine (inspects_fieldDeclaration plan f ty).ends_next (fun _ _ => hu) fun d _ => ?_
  refine (inspects_implied ty).ends_next (fun _ _ => hu) fun base _ => ?_
  refine (inspects_entry base).ends_next (fun _ _ => hu) fun e _ => ?_
  refine (inspects_specializeField plan.kind d e).ends_next (fun _ _ => hu) fun ⟨kind, d⟩ _ => ?_
  refine ends_bind.2 (ends_addSymbol.2 ?_)
  have hadd := add u kind d hu
  refine (inspects_typeOf _).ends_next (fun _ _ => hadd) fun ty _ => ends_bind.2 ?_
  exact ends_onSymbols.2 ⟨fun symbols h => bind _ _ _ hadd h, fun _ _ => hadd⟩

/-- Building fields only adds types, however it ends. -/
theorem ends_buildAll_grows (hcl : ∀ cl ∈ cloner, cl.Keeps) :
    Ends (fs.mapM (buildField ctx cloner plan)) s (fun _ t => s.types.Grows t.types)
      fun _ t => s.types.Grows t.types := by
  refine ends_mapM (I := fun _ _ (t : Session) => s.types.Grows t.types) (Grows.refl _)
    fun _ _ f _ t _ ht => ?_
  refine ends_buildField (I := fun u => s.types.Grows u.types) ?_ (fun _ _ _ hu => hu)
    fun _ _ _ hu _ => hu
  unfold fieldType
  split
  · split
    · rename_i cl
      have hkeeps : cl.Keeps := hcl cl rfl
      refine ends_iff.2 ⟨fun v u hv => ?_, fun x u hx => ?_⟩
      · exact Grows.trans ht (hkeeps.gives ⟨_, hv⟩).keeps.types
      · exact Grows.trans ht (hkeeps.breaks ⟨_, hx⟩).keeps.types
    · exact ht
  · exact ht

/-! ## Taking all of them over -/

/-- Without a symbol of the source there is no reference to it. -/
theorem sourceReference_eq_error {span : Span} {source : TypeId} {e : TypeEntry}
    (he : s.types.find source = .ok e) (hnone : e.symbol = none) :
    sourceReference span source s = .error (Fault.symbolMissing source) s :=
  bind_eq_error_iff.2 (.inl (symbolOf_eq_error he hnone))

/-- With one there is. -/
theorem exists_sourceReference (span : Span) {source : TypeId} {e : TypeEntry} {y : SymbolId}
    {named : Symbol} (he : s.types.find source = .ok e) (hy : e.symbol = some y)
    (hnamed : s.symbols.find y = .ok named) : ∃ r, sourceReference span source s = .ok r s :=
  ⟨_, sourceReference_eq_ok_iff.2
    ⟨rfl, e, y, named, _, he, hy, hnamed, aliases_iff.2 rfl, rfl⟩⟩

/-- If the target cannot refer to the source, it has the fields nevertheless. -/
theorem buildFields_of_strands (hcl : ∀ cl ∈ cloner, cl.Searches) {target : TypeEntry}
    {fields : List Field} (h : p.Strands ctx cloner s target fields u) :
    buildFields ctx cloner p node s = .error (Fault.symbolMissing p.source)
      { u with types :=
        ⟨u.types.entries.setIfInBounds p.target.index (target.withFields fields)⟩ } := by
  obtain @⟨source, target, templates, kind, holder, fields, u, immutable, hsource, record, unnamed,
    htemplates, htarget, hkind, hholder, builds⟩ := h
  have hu := (builds.preserves hcl).types
  have hbuilt : templates.values.mapM (buildField ctx cloner
      { holder, kind, package := p.package, span := p.span, flags := p.flags
        immutable := p.immutable }) s = .ok fields u :=
    mapM_buildField_eq_ok_iff.2 builds
  have hset : setFields p.target fields u = .ok () _ := changeType_eq (hu.find htarget) _
  obtain ⟨d, hd, hsymbol⟩ := exists_find_withFields (hu.find hsource) (hu.find htarget) fields
  unfold buildFields
  rw [bind_of_ok (kindOf_eq hsource record), bind_of_ok (kindOf_eq htarget hkind),
    bind_of_ok (symbolOf_eq htarget hholder), bind_of_ok (fieldsOf_eq hsource htemplates),
    bind_of_ok hbuilt, bind_of_ok hset, if_pos ⟨rfl, immutable⟩]
  exact bind_of_error (sourceReference_eq_error hd (hsymbol.trans unnamed))

/-- **If taking fields over fails, then the target is as it was, or it cannot refer to the
source.** -/
theorem ends_buildFields {b : Extent} (hcl : ∀ cl ∈ cloner, cl.Searches)
    (hkeeps : ∀ cl ∈ cloner, cl.Keeps) (htables : ClosedTables b s.symbols s.types) :
    Ends (buildFields ctx cloner p node) s (fun _ _ => True) fun _ t =>
      t.types.find p.target = s.types.find p.target ∨
        ∃ target fields u, p.Strands ctx cloner s target fields u := by
  unfold buildFields
  -- the structures are looked up
  refine (inspects_kindOf _).ends_next (fun _ _ => .inl rfl) fun sourceKind hsourceKind => ?_
  refine (inspects_kindOf _).ends_next (fun _ _ => .inl rfl) fun kind hkind => ?_
  refine (inspects_symbolOf _).ends_next (fun _ _ => .inl rfl) fun holder hholder => ?_
  refine (inspects_fieldsOf _).ends_next (fun _ _ => .inl rfl) fun templates htemplates => ?_
  obtain ⟨-, source, hsource, hsourceKind⟩ := kindOf_eq_ok_iff.1 hsourceKind
  obtain ⟨-, target, htarget, hkind⟩ := kindOf_eq_ok_iff.1 hkind
  obtain ⟨-, target', htarget', hholder⟩ := symbolOf_eq_ok_iff.1 hholder
  obtain ⟨-, source', hsource', htemplates⟩ := fieldsOf_eq_ok_iff.1 htemplates
  obtain rfl := Except.ok.inj (htarget.symm.trans htarget')
  obtain rfl := Except.ok.inj (hsource.symm.trans hsource')
  -- the fields are built, and replaced when all are there
  refine ends_bind.2 (ends_iff.2 ⟨fun fields u hbuilt => ?_, fun x t he => ?_⟩)
  swap
  · have hgrows := (ends_buildAll_grows hkeeps).of_error he
    exact .inl ((hgrows.find htarget).trans htarget.symm)
  have builds : BuildsAll ctx cloner (p.plan kind holder) templates.values s fields u :=
    mapM_buildField_eq_ok_iff.1 hbuilt
  have hu := builds.preserves hcl
  refine ends_bind.2 ((ends_of_ok (changeType_eq (hu.types.find htarget) _)).2 ?_)
  -- only the reference can still fail, and only for want of a symbol
  split
  swap
  · trivial
  rename_i hwanted
  obtain ⟨rfl, immutable⟩ := hwanted
  cases hsymbol : source.symbol with
  | none =>
    refine ends_iff.2 ⟨fun _ _ _ => trivial, fun _ _ _ => .inr ⟨target, fields, u, ?_⟩⟩
    exact .intro immutable hsource hsourceKind hsymbol htemplates htarget hkind hholder builds
  | some y =>
    obtain ⟨named, hnamed, -⟩ := htables.exists_symbol (htables.within_symbolOf hsource hsymbol)
    obtain ⟨d, hd, hd'⟩ :=
      exists_find_withFields (hu.types.find hsource) (hu.types.find htarget) fields
    obtain ⟨r, hr⟩ := exists_sourceReference (s := { u with types := _ }) p.span hd
      (hd'.trans hsymbol) (hu.find_symbol hnamed)
    exact ends_bind.2 ((ends_of_ok hr).2 trivial)

end Synth

/-! ## What the target has then -/

/-- A structure without fields is given none. -/
theorem TypeEntry.withFields_nil {e : TypeEntry} (h : e.ty.fields? = some ∅) :
    e.withFields [] = e := by
  obtain ⟨ty, x, flags⟩ := e
  cases ty with
  | record r =>
    obtain ⟨fields, isSealed, rest⟩ := r
    obtain rfl := Option.some.inj h
    rfl
  | object fields =>
    obtain rfl := Option.some.inj h
    rfl
  | _ => cases h

/-- The fields that have taken the place of the old ones are others: their symbols are new. -/
theorem Population.Strands.withFields_ne {b : Extent} {p : Population} {ctx : Context}
    {cloner : Option Cloner} {s u : Session} {target : TypeEntry} {fields : List Field}
    (h : p.Strands ctx cloner s target fields u) (hcl : ∀ cl ∈ cloner, cl.Searches)
    (htables : ClosedTables b s.symbols s.types)
    (hsome : fields ≠ [] ∨ target.ty.fields? ≠ some ∅) : target.withFields fields ≠ target := by
  obtain ⟨-, -, -, -, -, htarget, hkind, hholder, builds⟩ := h
  have hscope := builds.exists_bindings hcl htables (htables.within_symbolOf htarget hholder)
  obtain ⟨xs, hplaced⟩ := builds.placed hcl hscope
  obtain ⟨hvalues, -⟩ := builds.values_ofList hcl hscope
  obtain ⟨old, hold⟩ : ∃ old, target.ty.fields? = some old := by
    refine Option.isSome_iff_exists.1 ((Ty.structureKind?_isSome_iff _).1 ?_)
    rw [hkind]
    rfl
  intro hsame
  have hnew := congrArg (fun e : TypeEntry => e.ty.fields?) hsame
  simp only [TypeEntry.withFields, Ty.fields?_mapFields, hold, Option.map_some,
    Option.some.injEq] at hnew
  by_cases hne : fields = []
  · subst hne
    exact hsome.resolve_left (fun h => h rfl) (hold.trans (congrArg some hnew.symm))
  · obtain ⟨f, hf⟩ := List.exists_mem_of_ne_nil _ hne
    have hmem : f.symbol ∈ xs.map some := hplaced.symbols ▸ List.mem_map.2 ⟨f, hf, rfl⟩
    obtain ⟨x, hx, hsymbol⟩ := List.mem_map.1 hmem
    have hin := htables.within_fieldsOf htarget hold f (by rwa [← hnew, hvalues])
    have hlt := within_symbolId.1 (within_some.1 (hsymbol ▸ (within_field.1 hin).2))
    have hfresh := hplaced.fresh x hx
    rw [htables.symbol_count] at hfresh
    exact absurd hlt (Nat.not_lt_of_le hfresh)

/-! ## In a compilation -/

namespace Compilation

variable {c c' : Compilation} {env : Environment} {memo : Option Nat} {pending : Nat}
  {p : Population} {position : Nat} {x : Stop}

/-- The cloner of a context, if there is one, only adds to a session, also when it stops. -/
theorem keeps_cloner? (wanted : Bool) (ctx : Context) : ∀ cl ∈ cloner? wanted ctx, cl.Keeps := by
  intro cl hcl
  obtain rfl := eq_of_mem_cloner? hcl
  exact ⟨fun ⟨stamp, h⟩ => (Synth.readonlyWithin_keeps ctx _).gives ⟨stamp, h⟩,
    fun ⟨stamp, h⟩ => (Synth.readonlyWithin_keeps ctx _).breaks ⟨stamp, h⟩⟩

/-- The source is found to have no symbol when the target has got its fields already, and that can
be seen: one of the two has fields. -/
def NoticesLate (c : Compilation) (env : Environment) (memo : Option Nat) (pending : Nat)
    (p : Population) : Prop :=
  ∃ package target fields u, c.packages[env.package]? = some package ∧
    p.Strands ⟨c.settings, env.scopeOwner⟩ (cloner? memo.isSome ⟨c.settings, env.scopeOwner⟩)
      (c.session package ⟨memo.getD 0, pending⟩) target fields u ∧
    (fields ≠ [] ∨ target.ty.fields? ≠ some ∅)

section Node

variable {tree : TypeNode} {node : StructureNode} (htree : c.nodes[position]? = some tree)
  (hnode : tree.structure? = some node)
include htree hnode

/-- Fields are taken over in a session of the package, and the node is replaced in the end. -/
theorem ends_buildFields {package : Package} {Q : Unit → Compilation → Prop}
    {E : Stop → Compilation → Prop} (hpackage : c.packages[env.package]? = some package) :
    Ends (buildFields env memo pending p position) c Q E ↔
      Ends (Synth.buildFields ⟨c.settings, env.scopeOwner⟩
          (cloner? memo.isSome ⟨c.settings, env.scopeOwner⟩) p node)
        (c.session package ⟨memo.getD 0, pending⟩)
        (fun node' t => Q () { c.keep env.package ⟨memo.getD 0, pending⟩ t with
          nodes := c.nodes.setIfInBounds position (tree.withStructure node') })
        fun e t => E e (c.keep env.package ⟨memo.getD 0, pending⟩ t) := by
  unfold buildFields
  have htree' : Compilation.node position c = .ok tree c := node_eq_ok_iff.2 ⟨htree, rfl⟩
  have hnode' : structureNode position c = .ok node c :=
    structureNode_eq_ok_iff.2 ⟨tree, htree, hnode, rfl⟩
  rw [ends_bind, ends_of_ok htree', ends_bind, ends_of_ok hnode', ends_bind,
    ends_synthesize hpackage]
  rfl

/-- Without a package nothing is done. -/
theorem eq_of_buildFields_eq_error (hpackage : c.packages[env.package]? = none)
    (hr : buildFields env memo pending p position c = .error x c') : c' = c := by
  have htree' : Compilation.node position c = .ok tree c := node_eq_ok_iff.2 ⟨htree, rfl⟩
  have hnode' : structureNode position c = .ok node c :=
    structureNode_eq_ok_iff.2 ⟨tree, htree, hnode, rfl⟩
  rw [← ends_of_error (Q := fun _ _ => True) (E := fun _ d => d = c) hr, buildFields, ends_bind,
    ends_of_ok htree', ends_bind, ends_of_ok hnode', ends_bind, ends_synthesize_of_none hpackage]

/-- If the target cannot refer to the source, it has the fields nevertheless. -/
theorem find_target_of_strands {package : Package} {target : TypeEntry} {fields : List Field}
    {u : Session} (hpackage : c.packages[env.package]? = some package)
    (h : p.Strands ⟨c.settings, env.scopeOwner⟩
      (cloner? memo.isSome ⟨c.settings, env.scopeOwner⟩)
      (c.session package ⟨memo.getD 0, pending⟩) target fields u)
    (hr : buildFields env memo pending p position c = .error x c') :
    c.types.find p.target = .ok target ∧
      c'.types.find p.target = .ok (target.withFields fields) := by
  have hcl := searches_cloner? memo.isSome ⟨c.settings, env.scopeOwner⟩
  have hrun : Synth.buildFields ⟨c.settings, env.scopeOwner⟩
      (cloner? memo.isSome ⟨c.settings, env.scopeOwner⟩) p node
      (c.session package ⟨memo.getD 0, pending⟩) = .error (Fault.symbolMissing p.source) _ :=
    Synth.buildFields_of_strands hcl h
  obtain ⟨-, -, -, -, -, htarget, -, -, builds⟩ := h
  refine ⟨htarget, ?_⟩
  rw [← ends_of_error (Q := fun _ _ => True)
    (E := fun _ d => d.types.find p.target = .ok (target.withFields fields)) hr,
    ends_buildFields htree hnode hpackage, ends_of_error hrun]
  exact TypeTable.find_set_self ((builds.preserves hcl).types.find htarget) _

end Node

/-- **A failure leaves the target and its node alone, unless it shows too late.** -/
theorem target_kept_iff (c c' : Compilation) (env : Environment) (memo : Option Nat) (pending : Nat)
    (p : Population) (position : Nat) (x : Stop) (hc : c.Closed)
    (hnode : ∃ tree, c.nodes[position]? = some tree ∧ tree.structure?.isSome)
    (hr : buildFields env memo pending p position c = .error x c') :
    c'.nodes = c.nodes ∧
      (c'.types.find p.target = c.types.find p.target ↔ ¬c.NoticesLate env memo pending p) := by
  obtain ⟨tree, htree, hnode⟩ := hnode
  obtain ⟨node, hnode⟩ := Option.isSome_iff_exists.1 hnode
  have hcl := searches_cloner? memo.isSome ⟨c.settings, env.scopeOwner⟩
  cases hpackage : c.packages[env.package]? with
  | none =>
    obtain rfl := eq_of_buildFields_eq_error htree hnode hpackage hr
    refine ⟨rfl, fun _ => ?_, fun _ => rfl⟩
    rintro ⟨package, -, -, -, hpackage', -⟩
    rw [hpackage] at hpackage'
    cases hpackage'
  | some package =>
    have hends : c'.nodes = c.nodes ∧ (c'.types.find p.target = c.types.find p.target ∨
        ∃ target fields u, p.Strands ⟨c.settings, env.scopeOwner⟩
          (cloner? memo.isSome ⟨c.settings, env.scopeOwner⟩)
          (c.session package ⟨memo.getD 0, pending⟩) target fields u) := by
      rw [← ends_of_error (Q := fun _ _ => True) (E := fun _ d => d.nodes = c.nodes ∧
        (d.types.find p.target = c.types.find p.target ∨ _)) hr,
        ends_buildFields htree hnode hpackage]
      exact (Synth.ends_buildFields hcl (keeps_cloner? _ _) hc.tables).imp (fun _ _ _ => trivial)
        fun _ _ h => ⟨rfl, h⟩
    refine ⟨hends.1, ?_, fun hnot => hends.2.elim id ?_⟩
    · rintro hsame ⟨package', target, fields, u, hpackage', hstrands, hsome⟩
      obtain rfl := Option.some.inj (hpackage.symm.trans hpackage')
      obtain ⟨hbefore, hafter⟩ := find_target_of_strands htree hnode hpackage hstrands hr
      rw [hbefore, hafter] at hsame
      exact hstrands.withFields_ne hcl hc.tables hsome (Except.ok.inj hsame)
    · rintro ⟨target, fields, u, hstrands⟩
      have hnone : ¬(fields ≠ [] ∨ target.ty.fields? ≠ some ∅) := fun hsome =>
        hnot ⟨package, target, fields, u, hpackage, hstrands, hsome⟩
      obtain ⟨rfl, hempty⟩ := by simpa only [not_or, not_not] using hnone
      obtain ⟨hbefore, hafter⟩ := find_target_of_strands htree hnode hpackage hstrands hr
      rw [hbefore, hafter, TypeEntry.withFields_nil hempty]

/-- A record that no symbol names, and another one with a field, a scope and a node. -/
def orphan : Compilation :=
  (app [("Target", ⟨15⟩)] [{ appRecord ⟨0⟩ [("a", Builtin.int)] with symbol := none },
    appRecord ⟨1⟩ [("b", Builtin.int)]]).execute [.openScope ⟨1⟩, .addNode (.record {})]

/-- The fields of the nameless record of `orphan`, readonly, for the other one. -/
def orphanFields : Population :=
  { target := ⟨15⟩, source := ⟨14⟩, package := ⟨0⟩, immutable := true }

theorem orphan_fails : ∃ c' : Compilation,
    buildFields ⟨0, ⟨0⟩⟩ (some 0) 0 orphanFields 0 orphan =
      .error (Fault.symbolMissing ⟨14⟩) c' ∧ c'.types.find ⟨15⟩ ≠ orphan.types.find ⟨15⟩ := by
  have hrun : stops? (buildFields ⟨0, ⟨0⟩⟩ (some 0) 0 orphanFields 0 orphan) =
      some (.fault (.symbolMissing ⟨14⟩)) := by
    decide +kernel
  obtain ⟨c', hc'⟩ := stops?_eq_some hrun
  have hafter : orphan.after (buildFields ⟨0, ⟨0⟩⟩ (some 0) 0 orphanFields 0) = c' := by
    rw [Compilation.after, hc']
  refine ⟨c', hc', ?_⟩
  rw [← hafter]
  decide +kernel

/-- They replace the field that it has, and only then they are refused. -/
theorem orphan_replaced : orphan.Closed ∧ ∃ (f : Fault) (c' : Compilation),
    buildFields ⟨0, ⟨0⟩⟩ (some 0) 0 orphanFields 0 orphan = .error f c' ∧
      c'.types.find ⟨15⟩ ≠ orphan.types.find ⟨15⟩ := by
  obtain ⟨c', hr, hne⟩ := orphan_fails
  exact ⟨by decide +kernel, _, c', hr, hne⟩

theorem orphan_noticesLate : orphan.NoticesLate ⟨0, ⟨0⟩⟩ (some 0) 0 orphanFields := by
  obtain ⟨c', hr, hne⟩ := orphan_fails
  obtain ⟨-, hkept⟩ := target_kept_iff orphan c' ⟨0, ⟨0⟩⟩ (some 0) 0 orphanFields 0 _
    (by decide +kernel) ⟨.record {}, by decide +kernel, rfl⟩ hr
  exact not_not.1 fun hnot => hne (hkept.2 hnot)

end Compilation

end StructuralTypes
