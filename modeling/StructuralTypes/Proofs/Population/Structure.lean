import StructuralTypes.Proofs.Population.Run
import StructuralTypes.Proofs.Range.Run

/-!
# All fields of a structure

`buildFields` builds all fields of the source anew in the target, in order, and may add a reference
to the source to the node of the target. `Populates` says what it has done in a session when it is
done.

Results:
* `aliases_iff`: the local name of a package is that of its first import.
* `Synth.buildFields_eq_ok_iff`: fields are taken over exactly as `Populates` says.
* **`buildFields_takes_over`**: nothing is lost, invented or reordered.
-/

namespace StructuralTypes

/-! ## References to the source -/

/-- The name is the local name of the first import that leads to the package; it is empty if there
is none. -/
inductive Aliases (target : PackageId) : List Import → String → Prop
  /-- No import leads there. -/
  | unimported : Aliases target [] ""
  /-- The first import leads there. -/
  | first {i : Import} {imports : List Import} (leads : i.target = some target) :
      Aliases target (i :: imports) i.localName.name
  /-- The first import leads elsewhere, or nowhere. -/
  | later {i : Import} {imports : List Import} {name : String} (elsewhere : i.target ≠ some target)
      (rest : Aliases target imports name) : Aliases target (i :: imports) name

/-- The local name of a package is that of its first import. -/
theorem aliases_iff {p : Package} {target : PackageId} {name : String} :
    Aliases target p.imports name ↔ p.qualifierFor none target = name := by
  suffices h : ∀ imports : List Import, Aliases target imports name ↔
      ({ p with imports } : Package).qualifierFor none target = name from h p.imports
  intro imports
  induction imports with
  | nil =>
    constructor
    · rintro ⟨⟩
      rfl
    · rintro rfl
      exact .unimported
  | cons i imports ih =>
    simp only [Package.qualifierFor, Option.isNone_none, Bool.true_or, List.filter_true,
      List.find?_cons] at ih ⊢
    by_cases hi : i.target = some target
    · rw [beq_iff_eq.2 hi]
      constructor
      · rintro (- | - | ⟨elsewhere, -⟩)
        · rfl
        · exact absurd hi elsewhere
      · rintro rfl
        exact .first hi
    · rw [beq_eq_false_iff_ne.2 hi, ← ih]
      constructor
      · rintro (- | leads | ⟨-, rest⟩)
        · exact absurd leads hi
        · exact rest
      · exact .later hi

/-- The references that are added for the source of a population: one if a record becomes readonly,
by the name of its symbol and the local name of that symbol's package. -/
inductive Population.Refers (p : Population) (S : SymbolTable) (imports : List Import)
    (source : TypeEntry) : List TypeReference → Prop
  /-- An object is not referred to, and neither is a record that is taken over as it is. -/
  | unwanted (unwanted : ¬(source.ty.structureKind? = some .record ∧ p.immutable)) :
      Refers p S imports source []
  /-- A readonly record is referred to. -/
  | source {y : SymbolId} {named : Symbol} {localName : String}
      (record : source.ty.structureKind? = some .record) (immutable : p.immutable)
      (symbol : source.symbol = some y) (found : S.find y = .ok named)
      (aliased : Aliases named.package imports localName) :
      Refers p S imports source
        [{ qualifier := ⟨localName, p.span⟩, name := ⟨named.name, p.span⟩, ty := some p.source
           span := p.span }]

/-- What the fields of the target have in common. -/
def Population.plan (p : Population) (kind : StructureKind) (holder : SymbolId) : FieldPlan :=
  { holder, kind, package := p.package, span := p.span, flags := p.flags, immutable := p.immutable }

/-- The structure with other fields. -/
def TypeEntry.withFields (e : TypeEntry) (fields : List Field) : TypeEntry :=
  { e with ty := e.ty.mapFields fun _ => .ofList (fields.map fun f => (f.name, f)) }

namespace Synth

variable {ctx : Context} {cloner : Option Cloner} {p : Population} {node node' : StructureNode}
  {s t : Session} {ty : TypeId}

/-! ## Reading structures -/

/-- If an operation gives back a part of a type, and stops where the type lacks it, then it ends
well exactly if the type has it. -/
theorem entry_bind_eq_ok_iff {α : Type} {part? : TypeEntry → Option α} {f : TypeEntry → Synth α}
    {a : α} (hsome : ∀ e a, part? e = some a → f e = pure a)
    (hnone : ∀ e, part? e = none → ∃ x, f e = stop x) :
    (entry ty >>= f) s = .ok a t ↔ t = s ∧ ∃ e, s.types.find ty = .ok e ∧ part? e = some a := by
  simp only [bind_eq_ok_iff, entry, reading_eq_ok_iff]
  constructor
  · rintro ⟨e, _, ⟨he, rfl⟩, h⟩
    cases hpart : part? e with
    | none =>
      obtain ⟨x, hx⟩ := hnone e hpart
      rw [hx] at h
      cases h
    | some found =>
      rw [hsome e found hpart] at h
      cases h
      exact ⟨rfl, e, he, hpart⟩
  · rintro ⟨rfl, e, he, hpart⟩
    exact ⟨e, t, ⟨he, rfl⟩, by rw [hsome e a hpart]; rfl⟩

theorem symbolOf_eq_ok_iff {x : SymbolId} :
    symbolOf ty s = .ok x t ↔ t = s ∧ ∃ e, s.types.find ty = .ok e ∧ e.symbol = some x := by
  unfold symbolOf
  exact entry_bind_eq_ok_iff (fun _ _ h => by simp only [h]) fun _ h => ⟨_, by simp only [h]; rfl⟩

theorem kindOf_eq_ok_iff {kind : StructureKind} : kindOf ty s = .ok kind t ↔
    t = s ∧ ∃ e, s.types.find ty = .ok e ∧ e.ty.structureKind? = some kind := by
  unfold kindOf
  exact entry_bind_eq_ok_iff (fun _ _ h => by simp only [h]) fun _ h => ⟨_, by simp only [h]; rfl⟩

theorem fieldsOf_eq_ok_iff {fields : FieldMap} : fieldsOf ty s = .ok fields t ↔
    t = s ∧ ∃ e, s.types.find ty = .ok e ∧ e.ty.fields? = some fields := by
  unfold fieldsOf
  exact entry_bind_eq_ok_iff (fun _ _ h => by simp only [h]) fun _ h => ⟨_, by simp only [h]; rfl⟩

/-! ## What is done -/

/-- The fields of the source were built anew in the target, whose node is `node`. -/
inductive Populates (ctx : Context) (cloner : Option Cloner) (p : Population)
    (node : StructureNode) (s : Session) : StructureNode → Session → Prop
  | intro {source target : TypeEntry} {templates : FieldMap} {kind : StructureKind}
      {holder : SymbolId} {fields : List Field} {u : Session} {references : List TypeReference}
      (source_found : s.types.find p.source = .ok source)
      (templates_eq : source.ty.fields? = some templates)
      (target_found : s.types.find p.target = .ok target)
      (kind_eq : target.ty.structureKind? = some kind) (holder_eq : target.symbol = some holder)
      (builds : BuildsAll ctx cloner (p.plan kind holder) templates.values s fields u)
      (refers : p.Refers u.symbols u.package.imports source references) :
      Populates ctx cloner p node s { node with references := node.references ++ references }
        { u with types :=
          ⟨u.types.entries.setIfInBounds p.target.index (target.withFields fields)⟩ }

/-- The reference to a source is made of its symbol and of the imports. -/
theorem sourceReference_eq_ok_iff {span : Span} {source : TypeId} {r : TypeReference} :
    sourceReference span source s = .ok r t ↔ t = s ∧ ∃ e y named localName,
      s.types.find source = .ok e ∧ e.symbol = some y ∧ s.symbols.find y = .ok named ∧
        Aliases named.package s.package.imports localName ∧
          r = { qualifier := ⟨localName, span⟩, name := ⟨named.name, span⟩
                ty := some source, span } := by
  unfold sourceReference
  simp only [bind_eq_ok_iff, symbolOf_eq_ok_iff, symbol, qualifierFor, reading_eq_ok_iff]
  constructor
  · rintro ⟨y, _, ⟨rfl, e, he, hy⟩, named, _, ⟨hnamed, rfl⟩, localName, _, ⟨halias, rfl⟩, hr⟩
    cases hr
    exact ⟨rfl, e, y, named, localName, he, hy, hnamed, aliases_iff.2 (Except.ok.inj halias), rfl⟩
  · rintro ⟨rfl, e, y, named, localName, he, hy, hnamed, halias, rfl⟩
    exact ⟨y, t, ⟨rfl, e, he, hy⟩, named, t, ⟨hnamed, rfl⟩, localName, t,
      ⟨congrArg Except.ok (aliases_iff.1 halias), rfl⟩, rfl⟩

/-- Types keep their symbols when the fields of one of them are replaced. -/
theorem exists_find_withFields {T : TypeTable} {ty ty' : TypeId} {e e' : TypeEntry}
    (he : T.find ty = .ok e) (he' : T.find ty' = .ok e') (fields : List Field) : ∃ d,
    (TypeTable.mk (T.entries.setIfInBounds ty'.index (e'.withFields fields))).find ty = .ok d ∧
      d.symbol = e.symbol := by
  by_cases hty : ty = ty'
  · subst hty
    obtain rfl := Except.ok.inj (he.symm.trans he')
    exact ⟨_, TypeTable.find_set_self he _, rfl⟩
  · exact ⟨e, TypeTable.find_set_of_ne hty _ he, rfl⟩

/-- **The fields of a structure are taken over exactly as `Populates` says.** -/
theorem buildFields_eq_ok_iff (hcl : ∀ cl ∈ cloner, cl.Searches) :
    buildFields ctx cloner p node s = .ok node' t ↔ Populates ctx cloner p node s node' t := by
  unfold buildFields
  simp only [bind_eq_ok_iff, kindOf_eq_ok_iff, symbolOf_eq_ok_iff, fieldsOf_eq_ok_iff]
  constructor
  · rintro ⟨sourceKind, _, ⟨rfl, source, hsource, hsourceKind⟩,
      kind, _, ⟨rfl, target, htarget, hkind⟩, holder, _, ⟨rfl, target', htarget', hholder⟩,
      templates, s, ⟨rfl, source', hsource', htemplates⟩,
      fields, u, hbuilt, _, w, hset, hnode⟩
    obtain rfl := Except.ok.inj (hsource.symm.trans hsource')
    obtain rfl := Except.ok.inj (htarget.symm.trans htarget')
    have builds : BuildsAll ctx cloner (p.plan kind holder) templates.values s fields u :=
      mapM_buildField_eq_ok_iff.1 hbuilt
    have hu := (builds.preserves hcl).types
    rw [setFields, changeType_eq (hu.find htarget)] at hset
    cases hset
    split at hnode
    · rename_i hwanted
      obtain ⟨r, w, hr, hnode⟩ := bind_eq_ok_iff.1 hnode
      obtain ⟨rfl, e, y, named, name, he, hy, hnamed, haliases, rfl⟩ :=
        sourceReference_eq_ok_iff.1 hr
      cases hnode
      obtain ⟨d, hd, hsymbol⟩ := exists_find_withFields (hu.find hsource) (hu.find htarget) fields
      obtain rfl := Except.ok.inj (he.symm.trans hd)
      refine .intro hsource htemplates htarget hkind hholder builds ?_
      exact .source (hwanted.1 ▸ hsourceKind) hwanted.2 (hsymbol.symm.trans hy) hnamed haliases
    · rename_i hunwanted
      cases hnode
      have hnone : p.Refers u.symbols u.package.imports source [] :=
        .unwanted fun h => hunwanted ⟨Option.some.inj (hsourceKind.symm.trans h.1), h.2⟩
      have hdone : Populates ctx cloner p node s
          { node with references := node.references ++ [] } _ :=
        .intro hsource htemplates htarget hkind hholder builds hnone
      rw [List.append_nil] at hdone
      exact hdone
  · rintro @⟨source, target, templates, kind, holder, fields, u, references, hsource, htemplates,
      htarget, hkind, hholder, builds, refers⟩
    have hu := (builds.preserves hcl).types
    have hstructure : source.ty.structureKind?.isSome := by
      rw [Ty.structureKind?_isSome_iff, htemplates]
      rfl
    obtain ⟨sourceKind, hsourceKind⟩ := Option.isSome_iff_exists.1 hstructure
    refine ⟨sourceKind, s, ⟨rfl, source, hsource, hsourceKind⟩, kind, s,
      ⟨rfl, target, htarget, hkind⟩,
      holder, s, ⟨rfl, target, htarget, hholder⟩, templates, s, ⟨rfl, source, hsource, htemplates⟩,
      fields, u, mapM_buildField_eq_ok_iff.2 builds, (), _, changeType_eq (hu.find htarget) _, ?_⟩
    cases refers with
    | unwanted unwanted =>
      rw [if_neg fun h => unwanted ⟨hsourceKind.trans (congrArg some h.1), h.2⟩, List.append_nil]
      rfl
    | source record immutable symbol found aliased =>
      rw [if_pos ⟨Option.some.inj (hsourceKind.symm.trans record), immutable⟩]
      obtain ⟨d, hd, hsymbol⟩ := exists_find_withFields (hu.find hsource) (hu.find htarget) fields
      refine bind_eq_ok_iff.2 ⟨_, _, sourceReference_eq_ok_iff.2
        ⟨rfl, d, _, _, _, hd, hsymbol.trans symbol, found, aliased, rfl⟩, rfl⟩

end Synth

/-! ## In a compilation -/

namespace Compilation

variable {c c' : Compilation} {env : Environment} {memo : Option Nat} {pending : Nat}
  {p : Population} {position : Nat}

/-- The cloner of a context, if there is one, searches. -/
theorem searches_cloner? (wanted : Bool) (ctx : Context) :
    ∀ cl ∈ cloner? wanted ctx, cl.Searches := by
  intro cl hcl s ty v t ⟨stamp, h⟩
  obtain rfl := eq_of_mem_cloner? hcl
  exact ⟨ctx, _, stamp, h⟩

theorem node_eq_ok_iff {tree : TypeNode} :
    node position c = .ok tree c' ↔ c.nodes[position]? = some tree ∧ c' = c := by
  unfold node
  rw [reading_eq_ok_iff]
  cases c.nodes[position]? <;> simp

theorem structureNode_eq_ok_iff {node : StructureNode} :
    structureNode position c = .ok node c' ↔
      ∃ tree, c.nodes[position]? = some tree ∧ tree.structure? = some node ∧ c' = c := by
  unfold structureNode
  simp only [bind_eq_ok_iff, node_eq_ok_iff]
  constructor
  · rintro ⟨tree, _, ⟨htree, rfl⟩, h⟩
    cases hnode : tree.structure? with
    | none =>
      rw [hnode] at h
      cases h
    | some found =>
      rw [hnode] at h
      cases h
      exact ⟨tree, htree, hnode, rfl⟩
  · rintro ⟨tree, htree, hnode, rfl⟩
    exact ⟨tree, c', ⟨htree, rfl⟩, by rw [hnode]; rfl⟩

/-- A synthesis ends well if the session in its package does. -/
theorem synthesize_eq_ok_iff {α : Type} {slots : CloneSlots} {act : Context → Synth α} {a : α} :
    synthesize env slots act c = .ok a c' ↔ ∃ package t, c.packages[env.package]? = some package ∧
      act ⟨c.settings, env.scopeOwner⟩ (c.session package slots) = .ok a t ∧
        c' = c.keep env.package slots t := by
  unfold synthesize
  cases c.packages[env.package]? with
  | none => simp
  | some package =>
    cases h : act ⟨c.settings, env.scopeOwner⟩ (c.session package slots) <;> simp [h, eq_comm]

/-- It stops where the session does; without a package it stops at once. -/
theorem synthesize_eq_error_iff {α : Type} {slots : CloneSlots} {act : Context → Synth α}
    {x : Stop} :
    synthesize env slots act c = .error x c' ↔
      (c.packages[env.package]? = none ∧ x = .dangling ∧ c' = c) ∨
        ∃ package t, c.packages[env.package]? = some package ∧
          act ⟨c.settings, env.scopeOwner⟩ (c.session package slots) = .error x t ∧
            c' = c.keep env.package slots t := by
  unfold synthesize
  cases c.packages[env.package]? with
  | none => simp [eq_comm]
  | some package =>
    cases h : act ⟨c.settings, env.scopeOwner⟩ (c.session package slots) <;> simp [h, eq_comm]

/-- **The fields of a structure are taken over in a session of the package.** -/
theorem buildFields_eq_ok_iff : buildFields env memo pending p position c = .ok () c' ↔
    ∃ tree node package node' t, c.nodes[position]? = some tree ∧ tree.structure? = some node ∧
      c.packages[env.package]? = some package ∧
      Synth.Populates ⟨c.settings, env.scopeOwner⟩
        (cloner? memo.isSome ⟨c.settings, env.scopeOwner⟩) p node
        (c.session package ⟨memo.getD 0, pending⟩) node' t ∧
      c' = { c.keep env.package ⟨memo.getD 0, pending⟩ t with
        nodes := c.nodes.setIfInBounds position (tree.withStructure node') } := by
  unfold buildFields
  simp only [bind_eq_ok_iff, node_eq_ok_iff, structureNode_eq_ok_iff, synthesize_eq_ok_iff]
  constructor
  · rintro ⟨tree, _, ⟨htree, rfl⟩, node, c, ⟨tree', htree', hnode, rfl⟩, node', _,
      ⟨package, t, hpackage, hrun, rfl⟩, hset⟩
    obtain rfl := Option.some.inj (htree.symm.trans htree')
    cases hset
    exact ⟨tree, node, package, node', t, htree, hnode, hpackage,
      (Synth.buildFields_eq_ok_iff (searches_cloner? _ _)).1 hrun, rfl⟩
  · rintro ⟨tree, node, package, node', t, htree, hnode, hpackage, hrun, rfl⟩
    exact ⟨tree, c, ⟨htree, rfl⟩, node, c, ⟨tree, htree, hnode, rfl⟩, node', _,
      ⟨package, t, hpackage, (Synth.buildFields_eq_ok_iff (searches_cloner? _ _)).2 hrun, rfl⟩, rfl⟩

end Compilation

/-! ## What has been taken over -/

section Closed

variable {b : Extent} {S S' : SymbolTable} {T : TypeTable} {x : SymbolId}

theorem ClosedTables.within_entry (h : ClosedTables b S T) {ty : TypeId} {e : TypeEntry}
    (he : T.find ty = .ok e) : Within b e :=
  (within_typeTable.1 h.types).2.getElem? (TypeTable.find_eq_ok_iff.1 he)

theorem ClosedTables.within_symbolOf (h : ClosedTables b S T) {ty : TypeId} {e : TypeEntry}
    (he : T.find ty = .ok e) (hx : e.symbol = some x) : Within b x :=
  within_some.1 (hx ▸ (within_typeEntry.1 (h.within_entry he)).2)

theorem ClosedTables.within_fieldsOf (h : ClosedTables b S T) {ty : TypeId} {e : TypeEntry}
    {fields : FieldMap} (he : T.find ty = .ok e) (hfields : e.ty.fields? = some fields) :
    ∀ f ∈ fields.values, Within b f :=
  within_list.1 ((within_typeEntry.1 (h.within_entry he)).1.fields? hfields).values

/-- A symbol that was there reads back the same way before an addition. -/
theorem ClosedTables.find_of_grows (h : ClosedTables b S T) (hx : Within b x)
    (hs : Grows S.symbols S'.symbols) {named : Symbol} (hf : S'.find x = .ok named) :
    S.find x = .ok named := by
  obtain ⟨named', hnamed, -⟩ := h.exists_symbol hx
  rw [SymbolTable.find_eq_ok_iff] at hnamed hf ⊢
  rw [hnamed, ← hf, hs.getElem? hnamed]

/-- So does the scope of a symbol. -/
theorem ClosedTables.bindings?_of_grows (h : ClosedTables b S T) (hx : Within b x)
    (hs : Grows S.symbols S'.symbols) (hc : Grows S.scopes S'.scopes)
    {m : OrderedMap String SymbolId} (hm : S'.bindings? x = some m) : S.bindings? x = some m := by
  obtain ⟨named, id, scope, hnamed, hid, -, -⟩ := SymbolTable.bindings?_eq_some_iff.1 hm
  obtain ⟨named', hnamed', hin⟩ := h.exists_symbol hx
  obtain rfl := Except.ok.inj (hnamed'.symm.trans (h.find_of_grows hx hs hnamed))
  obtain ⟨scope', hscope', -⟩ := h.exists_scope (within_some.1 (hid ▸ (within_symbol.1 hin).2.2.2))
  have hm' := SymbolTable.bindings?_eq_some_iff.2 ⟨_, id, scope', hnamed', hid, hscope', rfl⟩
  rw [hm', ← hm, SymbolTable.bindings?_grows hs hc hm']

/-- There is a scope for the first field that is built, by the time its type is told. -/
theorem Synth.BuildsAll.bindings?_of_cons {ctx : Context} {cloner : Option Cloner}
    {plan : FieldPlan} {f : Field} {fs fields : List Field} {s t : Session}
    (h : BuildsAll ctx cloner plan (f :: fs) s fields t) :
    ∃ v u m, fieldType ctx cloner plan f.ty s = .ok v u ∧
      u.symbols.bindings? plan.holder = some m := by
  cases h with
  | cons first _ =>
    obtain @⟨v, ty, u, k, d, symbols, type, -, -, binds⟩ := first
    obtain ⟨m, hm, -⟩ := SymbolTable.bindings?_defineIn binds
    rw [SymbolTable.bindings?_add] at hm
    exact ⟨v, u, m, type, hm⟩

/-- If fields are built, there is a scope for their names. -/
theorem Synth.BuildsAll.exists_bindings {ctx : Context} {cloner : Option Cloner} {plan : FieldPlan}
    {fs fields : List Field} {s t : Session} (h : BuildsAll ctx cloner plan fs s fields t)
    (hcl : ∀ cl ∈ cloner, cl.Searches) (htables : ClosedTables b s.symbols s.types)
    (hholder : Within b plan.holder) (hne : fs ≠ []) :
    ∃ m, s.symbols.bindings? plan.holder = some m := by
  obtain ⟨f, fs, rfl⟩ := List.exists_cons_of_ne_nil hne
  obtain ⟨v, u, m, type, hm⟩ := h.bindings?_of_cons
  obtain ⟨hu, hscopes⟩ := preserves_of_fieldType hcl type
  exact ⟨m, htables.bindings?_of_grows hholder hu.symbols hscopes hm⟩

/-- Fields that were built can be kept under their names, which are those of the templates. -/
theorem Synth.BuildsAll.values_ofList {ctx : Context} {cloner : Option Cloner} {plan : FieldPlan}
    {fs fields : List Field} {s t : Session} (h : BuildsAll ctx cloner plan fs s fields t)
    (hcl : ∀ cl ∈ cloner, cl.Searches)
    (hm : fs ≠ [] → ∃ m, s.symbols.bindings? plan.holder = some m) :
    (OrderedMap.ofList (fields.map fun f : Field => (f.name, f))).values = fields ∧
      (OrderedMap.ofList (fields.map fun f : Field => (f.name, f))).keys = fs.map (·.name) := by
  obtain ⟨xs, hplaced⟩ := h.placed hcl hm
  have hnodup := h.names_nodup hcl hm
  rw [← hplaced.names] at hnodup ⊢
  exact StructuralTypes.values_ofList hnodup

/-- The source is referred to by what was there before anything was added. -/
theorem Population.Refers.of_grows {p : Population} {imports : List Import} {source : TypeEntry}
    {references : List TypeReference} (h : p.Refers S' imports source references)
    (htables : ClosedTables b S T) {ty : TypeId} (hsource : T.find ty = .ok source)
    (hs : Grows S.symbols S'.symbols) : p.Refers S imports source references := by
  cases h with
  | unwanted unwanted => exact .unwanted unwanted
  | source record immutable symbol found aliased =>
    have hy := htables.within_symbolOf hsource symbol
    exact .source record immutable symbol (htables.find_of_grows hy hs found) aliased

end Closed

namespace Compilation

/-- The fields `templates` of the source have been taken over as `fields`, with the symbols `xs`,
into the target, whose symbol is `holder`; the node of the target got `references`. -/
structure TakenOver (c c' : Compilation) (env : Environment) (p : Population) (position : Nat)
    (source target : TypeEntry) (templates fields : FieldMap) (holder : SymbolId)
    (xs : List SymbolId) (references : List TypeReference) : Prop where
  /-- The source is a structure with these fields. -/
  source_found : c.types.find p.source = .ok source ∧ source.ty.fields? = some templates
  /-- The target is a structure with a symbol. -/
  target_found : c.types.find p.target = .ok target ∧ target.ty.structureKind?.isSome ∧
    target.symbol = some holder
  /-- The fields of the target are replaced, and nothing else about it changes. -/
  replaced : c'.types.find p.target =
    .ok { target with ty := target.ty.mapFields fun _ => fields }
  /-- There is one field for each of the source, in the same order and under its name. -/
  keys : fields.keys = templates.values.map (·.name)
  /-- The symbols of the fields are new, and bound in the scope of the target's symbol. -/
  placed : Placed holder c.symbols c'.symbols templates.values fields.values xs
  /-- A record that is taken over readonly is referred to, as the package imports it. -/
  refers : ∃ package, c.packages[env.package]? = some package ∧
    p.Refers c.symbols package.imports source references
  /-- Nothing else is added to the node. -/
  node : ∃ tree node, c.nodes[position]? = some tree ∧ tree.structure? = some node ∧
    c'.nodes[position]? =
      some (tree.withStructure { node with references := node.references ++ references })

/-- **Taking over fields loses, invents and reorders nothing.** -/
theorem buildFields_takes_over (c c' : Compilation) (env : Environment) (memo : Option Nat)
    (pending : Nat) (p : Population) (position : Nat) (hc : c.Closed)
    (hr : buildFields env memo pending p position c = .ok () c') :
    ∃ source target templates fields holder xs references,
      TakenOver c c' env p position source target templates fields holder xs references := by
  obtain ⟨tree, node, package, node', t, htree, hnode, hpackage, hdone, rfl⟩ :=
    buildFields_eq_ok_iff.1 hr
  obtain @⟨source, target, templates, kind, holder, built, u, references, hsource, htemplates,
    htarget, hkind, hholder, builds, refers⟩ := hdone
  have hcl := searches_cloner? memo.isSome ⟨c.settings, env.scopeOwner⟩
  have hu := builds.preserves hcl
  have htables := hc.tables
  have hscope := builds.exists_bindings hcl htables (htables.within_symbolOf htarget hholder)
  obtain ⟨xs, hplaced⟩ := builds.placed hcl hscope
  obtain ⟨hvalues, hkeys⟩ := builds.values_ofList hcl hscope
  exact ⟨source, target, templates, .ofList (built.map fun f : Field => (f.name, f)), holder,
    xs, references,
    { source_found := ⟨hsource, htemplates⟩
      target_found := ⟨htarget, by rw [hkind]; rfl, hholder⟩
      replaced := TypeTable.find_set_self (hu.types.find htarget) (target.withFields built)
      keys := hkeys
      placed := hvalues.symm ▸ hplaced
      refers := ⟨package, hpackage, (hu.imports ▸ refers).of_grows htables hsource hu.symbols⟩
      node := ⟨tree, node, htree, hnode,
        Array.getElem?_setIfInBounds_self_of_lt (Array.getElem?_eq_some_iff.1 htree).1⟩ }⟩

/-- A record with two fields, and one without, which has a scope and a node. -/
def nursery : Compilation :=
  (app [("Full", ⟨14⟩), ("Bare", ⟨15⟩)]
    [appRecord ⟨1⟩ [("a", Builtin.int), ("b", ⟨14⟩)], appRecord ⟨2⟩ []]).execute
    [.openScope ⟨2⟩, .addNode (.record {})]

/-- The fields of the full record of `nursery`, readonly, for the bare one. -/
def nurseryFields : Population :=
  { target := ⟨15⟩, source := ⟨14⟩, package := ⟨0⟩, flags := .only .readonly, immutable := true }

theorem nursery_takes_over :
    ∃ c', buildFields ⟨0, ⟨0⟩⟩ (some 0) 0 nurseryFields 0 nursery = .ok () c' ∧
    ∃ source target templates fields holder xs references,
      TakenOver nursery c' ⟨0, ⟨0⟩⟩ nurseryFields 0 source target templates fields holder xs
        references := by
  have hrun : answers? (buildFields ⟨0, ⟨0⟩⟩ (some 0) 0 nurseryFields 0 nursery) = some () := by
    decide +kernel
  obtain ⟨c', hc'⟩ := answers?_eq_some hrun
  exact ⟨c', hc', buildFields_takes_over nursery c' ⟨0, ⟨0⟩⟩ (some 0) 0 nurseryFields 0
    (by decide +kernel) hc'⟩

end Compilation

end StructuralTypes
