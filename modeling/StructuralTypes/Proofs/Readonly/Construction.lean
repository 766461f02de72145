import StructuralTypes.Proofs.Declaration.Session
import StructuralTypes.Proofs.Readonly.Filling

/-!
# How a clone is made

A clone is drafted, filled while it is pending, given an initializer and registered. `Filled` says
what a clone is made of then, `Clones` what has become of the session, and `Abandons` where the
work was broken off on the way.

Results:
* `Filling.fillClone`: the clone is made of the variants of the members of its source.
* `ends_registerDefinition`: only a definition under the same symbol is in the way of another.
* **`ends_makeClone`**: a structure is cloned, or its cloning is broken off.
-/

namespace StructuralTypes

namespace Synth

variable {s t u : Session} {d : Draft} {names : List String} {body : Ty}

/-- **The clone gets its initializer**, unless a field has its name. -/
theorem ends_attachInitializer (h : SiteProgress s d names body t u) (ctx : Context)
    {node : StructureNode} (hsymbol : node.symbol = some d.holder) (hty : node.ty = some d.clone) :
    Ends (attachInitializer ctx node) u (fun _ v => ∃ names', SiteProgress s d names' body t v)
      (fun x v => x ≠ .unending ∧ SiteProgress s d names body t v ∧
        ∃ name, attachedName name ctx.settings.initializerSuffix ∈ names) := by
  unfold attachInitializer
  rw [hty, hsymbol]
  refine ends_bind.2 (ends_pure.2 ?_)
  refine ends_bind.2 ((h.createInitializer ctx rfl).imp ?_ fun _ _ he => he)
  rintro f u₁ ⟨h₁, name, hname⟩
  refine ends_bind.2 (h₁.bindName.imp ?_ ?_)
  swap
  · rintro x _ ⟨hx, rfl, hbound⟩
    exact ⟨hx, h₁, name, hname ▸ hbound⟩
  rintro - u₂ ⟨-, h₂, -, -⟩
  refine ends_bind.2 ((h₂.changeLinks _ _).imp ?_ fun _ _ he => he)
  intro _ u₃ h₃
  exact ends_pure.2 ⟨_, h₃⟩

/-- The fields of the clone have symbols, so to declare them is to read. -/
theorem ends_fieldDeclarations {E : Stop → Session → Prop} (h : Site s d names body u)
    (package : PackageId) :
    Ends (fieldDeclarations d.clone package) u (fun _ v => v = u) E := by
  obtain ⟨fields, hfields⟩ : ∃ fields, body.fields? = some fields := by
    rw [← Option.isSome_iff_exists, ← Ty.structureKind?_isSome_iff, h.kind]
    rfl
  unfold fieldDeclarations
  refine ends_bind.2 ((ends_of_ok (fieldsOf_eq h.clone_entry hfields)).2 ?_)
  refine ends_mapM (I := fun _ _ v => v = u) rfl ?_
  rintro pre - f post v hsplit rfl
  obtain ⟨x, hx, hlt⟩ := h.fields fields hfields f (by simp [hsplit])
  obtain ⟨named, hnamed⟩ := SymbolTable.exists_find hlt
  exact (ends_of_ok (fieldDeclarationNode_of_symbol hx hnamed package)).2 rfl

end Synth

/-! ## The whole clone -/

/-- `ty'` is the structure `ty` with the types `vs` for its members. -/
inductive Filled (S T : TypeTable) : Ty → List TypeId → Ty → Prop
  /-- A record keeps its fields and its sealing, and whether it has undeclared fields. -/
  | record (r r' : RecordType) {vs : List TypeId}
      (fields : FieldsBuilt S T .record r.fields.values vs r'.fields.values)
      (keys : r'.fields.keys = r.fields.values.map (·.name)) (sealed : r'.sealed = r.sealed)
      (rest : r'.rest.isSome = r.rest.isSome) :
      Filled S T (.record r) (vs ++ r'.rest.toList) (.record r')
  /-- An object keeps its fields. -/
  | object {fields fields' : FieldMap} {vs : List TypeId}
      (fields_ : FieldsBuilt S T .object fields.values vs fields'.values)
      (keys : fields'.keys = fields.values.map (·.name)) :
      Filled S T (.object fields) vs (.object fields')

theorem Filled.mono {S T U : TypeTable} {ty ty' : Ty} {vs : List TypeId}
    (hT : ∀ ty, T.Failed ty → U.Failed ty) (h : Filled S T ty vs ty') : Filled S U ty vs ty' := by
  cases h with
  | record r r' fields keys sealed rest => exact .record r r' (fields.mono hT) keys sealed rest
  | object fields keys => exact .object (fields.mono hT) keys

/-- What is filled is made of what it was filled with. -/
theorem Filled.madeOf {S T : TypeTable} {ty ty' : Ty} {vs : List TypeId}
    (h : Filled S T ty vs ty') : ty'.MadeOf vs := by
  intro m hm
  cases h with
  | record r r' fields =>
    rcases List.mem_append.1 hm with hm | hm
    · exact (fields.ty_mem hm).imp_right (List.mem_append_left _)
    · exact .inr (List.mem_append_right _ hm)
  | object fields => exact fields.ty_mem hm

/-- What is cloned of a structure is taken from its type. -/
inductive Synth.Blueprint.Describes : Synth.Blueprint → Ty → Prop
  /-- Of a record. -/
  | record (r : RecordType) : Describes ⟨.record, r.sealed, r.rest⟩ (.record r)
  /-- Of an object. -/
  | object (fields : FieldMap) : Describes ⟨.object, false, none⟩ (.object fields)

/-- A shell is made of nothing. -/
theorem Synth.Blueprint.members_shell (b : Synth.Blueprint) : b.shell.members = [] := by
  unfold shell
  split <;> rfl

namespace Synth.Blueprint.Describes

variable {b : Synth.Blueprint} {ty : Ty}

/-- The fields come first among the members, then the type of the undeclared ones. -/
theorem members (h : b.Describes ty) : ∃ fields, ty.fields? = some fields ∧
    ty.structureKind? = some b.kind ∧ b.shell.structureKind? = some b.kind ∧
    ty.members = fields.values.map (·.ty) ++ b.rest.toList := by
  cases h with
  | record r => exact ⟨r.fields, rfl, rfl, rfl, rfl⟩
  | object fields => exact ⟨fields, rfl, rfl, rfl, (List.append_nil _).symm⟩

variable {S T : TypeTable} {fields : FieldMap} {vs : List TypeId} {fs' : List Field}

/-- The structure that has got its fields, and the type of its undeclared fields if it has any, is
filled. -/
theorem filled (h : b.Describes ty) (hfields : ty.fields? = some fields)
    (hbuilt : FieldsBuilt S T b.kind fields.values vs fs')
    (hnodup : (fields.values.map (·.name)).Nodup) (rest : Option TypeId)
    (hrest : rest.isSome = b.rest.isSome) :
    Filled S T ty (vs ++ rest.toList)
      (rest.elim id Ty.withRest
        (b.shell.mapFields fun _ => .ofList (fs'.map fun f => (f.name, f)))) := by
  have hnames := hbuilt.names_eq
  obtain ⟨hvalues, hkeys⟩ := values_ofList (hnames ▸ hnodup)
  cases h with
  | record r =>
    obtain rfl := Option.some.inj hfields
    have hvalues' : FieldsBuilt S T .record r.fields.values vs
        (OrderedMap.ofList (fs'.map fun f => (f.name, f))).values := by
      rw [hvalues]
      exact hbuilt
    have hr := Filled.record r
      { sealed := r.sealed, fields := .ofList (fs'.map fun f => (f.name, f)), rest } hvalues'
      (hkeys.trans hnames) rfl hrest
    cases rest <;> exact hr
  | object fields' =>
    obtain rfl := Option.some.inj hfields
    cases rest with
    | none =>
      rw [Option.toList_none, List.append_nil]
      exact .object (by rw [hvalues]; exact hbuilt) (hkeys.trans hnames)
    | some v => simp at hrest

end Synth.Blueprint.Describes

namespace Filling

open Synth

variable {ctx : Context} {cl : Cloner} {s s₁ u : Session} {d : Draft}

/-- **The clone is filled** with the variants of the members of its source. -/
theorem fillClone {source : TypeId} {e : TypeEntry} {b : Blueprint} {x : SymbolId}
    (h : Filling cl s s₁ d [] b.shell [] [] u) (hcl : cl.Keeps) (stamp : Stamp)
    (hsource : s.types.find source = .ok e) (hb : b.Describes e.ty) (hkind : b.kind = d.kind)
    (hx : e.symbol = some x) (hlt : x.index < s.symbols.symbols.size) :
    Ends (fillClone ctx cl stamp source b d.clone d.holder) u
      (fun node w => node.symbol = some d.holder ∧ node.ty = some d.clone ∧ ∃ fields vs body,
        e.ty.fields? = some fields ∧
        Filling cl s s₁ d (fields.values.map (·.name)) body e.ty.members vs w ∧
        Filled s.types w.types e.ty vs body)
      (BrokenOff ctx cl s s₁ d e) := by
  obtain ⟨fields, hfields, hty, -, hmembers⟩ := hb.members
  rw [hkind] at hty
  have part : fields.values.map (·.ty) <+: e.ty.members := ⟨b.rest.toList, hmembers.symm⟩
  unfold Synth.fillClone
  refine ends_bind.2 ((h.buildFields hcl rfl rfl hsource hty hx hlt hfields part _).imp ?_
    fun _ _ he => he)
  rintro node t ⟨hsymbol, hclone, vs, fs', hfilling, hbuilt, hnodup⟩
  rw [← hkind] at hbuilt
  -- what is left to do once all members are visited
  have finish : ∀ vs' body w,
      Filling cl s s₁ d (fields.values.map (·.name)) body e.ty.members vs' w →
      Filled s.types w.types e.ty vs' body →
      Ends (do return { node with fields := ← fieldDeclarations d.clone stamp.package }) w
        (fun node w => node.symbol = some d.holder ∧ node.ty = some d.clone ∧ ∃ fields vs body,
          e.ty.fields? = some fields ∧
          Filling cl s s₁ d (fields.values.map (·.name)) body e.ty.members vs w ∧
          Filled s.types w.types e.ty vs body)
        (BrokenOff ctx cl s s₁ d e) := by
    intro vs' body w hfilling' hf
    refine ends_bind.2 ((ends_fieldDeclarations hfilling'.site _).imp ?_ fun _ _ he => he)
    rintro nodes _ rfl
    exact ends_pure.2 ⟨hsymbol, hclone, fields, vs', body, hfields, hfilling', hf⟩
  dsimp only
  cases hrest : b.rest with
  | none =>
    rw [hrest, Option.toList_none, List.append_nil] at hmembers
    have hf := hb.filled hfields hbuilt hnodup none (by simp [hrest])
    exact finish vs _ t (hmembers ▸ hfilling) (by simpa using hf)
  | some rest =>
    rw [hrest] at hmembers
    refine ends_bind.2 ((hfilling.visit hcl stamp hmembers).imp ?_ fun _ _ he => he)
    rintro v w ⟨hfilling', hext⟩
    refine ends_bind.2 ((hfilling'.site.progress.changeClone ?_ ?_).imp ?_ fun _ _ he => he)
    · cases b.shell <;> rfl
    · intro fields' hfields'
      rw [Ty.fields?_withRest] at hfields'
      exact hfilling'.site.fields fields' hfields'
    intro _ w' hprogress
    have hf := hb.filled hfields hbuilt hnodup (some v) (by simp [hrest])
    have hdone := hfilling'.progress hprogress fun m hm =>
      (Ty.mem_members_withRest hm).elim (fun hv => .inr (by simp [hv])) (hfilling'.made m)
    refine finish (vs ++ [v]) _ w' (hmembers ▸ hdone) (hf.mono ?_)
    intro ty hfailed
    exact hfilling'.site.failed hprogress.changes (hfailed.grows hext.types)

end Filling

/-! ## From the first step to the last -/

/-- In `s₁`, the filling of a clone of the structure `base` begins, whose entry is `e`. The clone
and its symbol were added to `s`, and the clone is pending. -/
structure Session.Drafts (s : Session) (base : TypeId) (e : TypeEntry) (d : Draft) (s₁ : Session) :
    Prop where
  /-- The clone is a new type. -/
  clone : d.clone = ⟨s.types.entries.size⟩
  /-- Its symbol is a new symbol. -/
  holder : d.holder = ⟨s.symbols.symbols.size⟩
  /-- The clone is of the kind of the structure. -/
  kind : e.ty.structureKind? = some d.kind
  /-- It is readonly. -/
  flags : d.flags = e.flags ∪ .only .readonly
  /-- No other type was added. -/
  types : ∃ ty, ty.structureKind? = some d.kind ∧ s₁.types = ⟨s.types.entries.push (d.entry ty)⟩
  /-- No other symbol was added. -/
  symbols : s₁.symbols.symbols.size = s.symbols.symbols.size + 1
  /-- No variant was remembered. -/
  memo : s₁.memo = s.memo
  /-- The clone is pending. -/
  pending : s₁.pending = s.pending.insert base d.clone
  /-- Nothing was registered. -/
  package : s₁.package = s.package

theorem Session.Drafts.clone_index {s s₁ : Session} {base : TypeId} {e : TypeEntry} {d : Draft}
    (h : s.Drafts base e d s₁) : d.clone.index = s.types.entries.size :=
  congrArg TypeId.index h.clone

theorem Session.Drafts.holder_index {s s₁ : Session} {base : TypeId} {e : TypeEntry} {d : Draft}
    (h : s.Drafts base e d s₁) : d.holder.index = s.symbols.symbols.size :=
  congrArg SymbolId.index h.holder

/-- The structure `base` is cloned: the clone is drafted, filled, named and registered. -/
inductive Clones (cl : Cloner) (s : Session) (base : TypeId) (e : TypeEntry) :
    TypeId → Session → Prop
  /-- Where this leads. -/
  | intro {d : Draft} {s₁ t : Session} {vs : List TypeId} {ty : Ty} {definition : TypeDefinition}
      (drafts : s.Drafts base e d s₁)
      (visits : cl.Visits (ChangesOnlyClone d.clone) s₁ e.ty.members vs t)
      (entry : t.types.find d.clone = .ok (d.entry ty)) (filled : Filled s.types t.types e.ty vs ty)
      (keeps : s.Extends t) (symbol_eq : definition.symbol = d.holder)
      (ty_eq : definition.ty = some d.clone) :
      Clones cl s base e d.clone
        { t with
          pending := s.pending
          package :=
            { t.package with typeDefinitions := t.package.typeDefinitions ++ [definition] } }

/-- The cloning of the structure `base` is broken off. -/
inductive Abandons (ctx : Context) (cl : Cloner) (s : Session) (base : TypeId) (e : TypeEntry) :
    Stop → Session → Prop
  /-- It has no symbol. -/
  | early {x : Stop} (ends : x ≠ .unending)
      (nameless : ∀ y, e.symbol = some y → s.symbols.symbols.size ≤ y.index) :
      Abandons ctx cl s base e x s
  /-- While the clone was made. -/
  | late {d : Draft} {s₁ t : Session} {vs : List TypeId} {body : Ty} {x : Stop}
      (drafts : s.Drafts base e d s₁)
      (stops : cl.Stops (ChangesOnlyClone d.clone) (Hindered ctx s e d.holder) s₁ e.ty.members
        vs x t)
      (entry : t.types.find d.clone = .ok (d.entry body)) (made : body.MadeOf vs)
      (keeps : s.Extends t) : Abandons ctx cl s base e x { t with pending := s.pending }

section MakeClone

open Synth

variable {cl : Cloner} {s : Session} {base : TypeId} {e : TypeEntry} {b : Blueprint}

/-- A clone is given a name. -/
theorem ends_cloneName {E : Stop → Session → Prop} (stamp : Stamp) (named : Symbol) :
    Ends (cloneName stamp named) s
      (fun name t => name.isEmpty = false ∧ ∃ names, t = { s with names }) E := by
  unfold cloneName
  split
  · refine ⟨?_, _, rfl⟩
    simp [NameSupply.name, NameFamily.stem]
  · exact ends_pure.2 ⟨by simp, s.names, rfl⟩

/-- A clone is drafted: it and its symbol are added, and the symbol has an empty scope. -/
theorem ends_openClone {E : Stop → Session → Prop} (stamp : Stamp) (named : Symbol)
    (he : s.types.find base = .ok e) (hkind : b.shell.structureKind? = some b.kind)
    (hty : e.ty.structureKind? = some b.kind) :
    Ends (openClone stamp base named b) s
      (fun r t => ∃ d : Draft, r = (d.clone, d.holder) ∧ d.kind = b.kind ∧
        s.Drafts base e d { t with pending := s.pending.insert base d.clone } ∧
        t.pending = s.pending ∧ Site s d [] b.shell t) E := by
  unfold openClone
  refine ends_bind.2 ((ends_cloneName stamp named).imp ?_ fun _ _ he => he)
  rintro name _ ⟨hname, names, rfl⟩
  have he' : ({ s with names } : Session).types.find base = .ok e := he
  unfold addReadonly
  refine ends_bind.2 (ends_bind.2 ((ends_of_ok (entry_eq he')).2 (ends_addType.2 ?_)))
  refine ends_bind.2 (ends_addSymbol.2 ?_)
  -- the new symbol gets a scope, and the new type gets the symbol
  have hsymbol := SymbolTable.find_add_self s.symbols (.type {})
    { name, package := stamp.package, flags := named.flags ∪ .only .readonly, origin := .virtual
      span := stamp.span, ty := some ⟨s.types.entries.size⟩, owner := some stamp.owner }
  refine ends_bind.2 ((ends_of_ok (openScope_eq hsymbol)).2 ?_)
  have hentry := TypeTable.find_add_self s.types
    { ty := b.shell, flags := e.flags ∪ .only .readonly }
  refine ends_bind.2 ((ends_of_ok (changeType_eq hentry _)).2 ?_)
  rw [ends_pure]
  let d : Draft :=
    { clone := ⟨s.types.entries.size⟩, holder := ⟨s.symbols.symbols.size⟩, kind := b.kind
      flags := e.flags ∪ .only .readonly }
  have htypes : (s.types.add { ty := b.shell, flags := d.flags }).2.entries.setIfInBounds
      s.types.entries.size (d.entry b.shell) = s.types.entries.push (d.entry b.shell) :=
    Grows.setIfInBounds_push _ _ _
  have hclone := TypeTable.find_set_self hentry (d.entry b.shell)
  refine ⟨d, rfl, rfl, ?_, rfl, ?_⟩
  · refine { clone := rfl, holder := rfl, kind := hty, flags := rfl, types := ?_, symbols := ?_,
             memo := rfl, pending := rfl, package := rfl }
    · exact ⟨b.shell, hkind, congrArg TypeTable.mk htypes⟩
    · simp [SymbolTable.add]
  · refine { keeps := ?_, clone_new := Nat.le_refl _, holder_new := Nat.le_refl _,
             clone_entry := hclone, kind := hkind, fields := ?_, scope := ?_ }
    · refine { symbols := ?_, scopes := .push _ _, types := ?_, definitions := List.prefix_rfl,
               package := rfl, memo := fun _ _ h => h }
      · exact (SymbolTable.grows_add _ _ _).setIfInBounds (Nat.le_refl _) _
      · exact (Grows.push _ _).setIfInBounds (Nat.le_refl _) _
    · intro fields hfields f hf
      obtain rfl : fields = ∅ := by
        unfold Blueprint.shell at hfields
        split at hfields <;> exact (Option.some.inj hfields).symm
      exact absurd hf List.not_mem_nil
    · exact ⟨_, ⟨s.symbols.scopes.size⟩, { id := ⟨s.symbols.scopes.size⟩, owner := d.holder },
        { found := SymbolTable.find_set_self hsymbol _
          links := rfl
          named := hname
          scope_eq := rfl
          new := Nat.le_refl _
          scope_found := SymbolTable.findScope_eq_ok_iff.2 Array.getElem?_push_size
          keys := by simp }⟩

/-- A definition is registered, unless there is one under its symbol. -/
theorem ends_registerDefinition {x : SymbolId} {named : Symbol}
    (hx : s.symbols.find x = .ok named) (ty : TypeId) (node : TypeNode) :
    Ends (registerDefinition ty x node) s
      (fun _ t => ∃ definition : TypeDefinition, definition =
          { name := ⟨named.name, named.span⟩, ty := some ty, symbol := x, node, flags := named.flags
            span := named.span } ∧
        t = { s with package :=
          { s.package with typeDefinitions := s.package.typeDefinitions ++ [definition] } })
      fun e t => e ≠ .unending ∧ t = s ∧
        ∃ definition ∈ s.package.typeDefinitions, definition.symbol = x := by
  unfold registerDefinition draftDefinition
  refine ends_bind.2 (ends_bind.2 ((ends_of_ok (symbol_eq hx)).2 (ends_pure.2 ?_)))
  unfold Ends registerType
  dsimp only
  split <;> rename_i hr <;> split at hr <;> rename_i hreg
  · cases hr
    obtain ⟨-, -, rfl⟩ := Package.registerType_eq_ok_iff.1 hreg
    exact ⟨_, rfl, rfl⟩
  · cases hr
  · cases hr
  · cases hr
    unfold Package.registerType at hreg
    split at hreg
    · rename_i hmem
      cases hreg
      obtain ⟨definition, hdefined, hsame⟩ := List.mem_map.1 hmem
      exact ⟨by simp, rfl, definition, hdefined, hsame⟩
    · cases hreg

/-- **A structure is cloned, or its cloning is broken off.** -/
theorem ends_makeClone {cl : Cloner} (hcl : cl.Keeps) (ctx : Context) (stamp : Stamp)
    (he : s.types.find base = .ok e) (hb : b.Describes e.ty) (hpending : base ∉ s.pending.keys) :
    Ends (makeClone ctx cl stamp base b) s (Clones cl s base e) (Abandons ctx cl s base e) := by
  obtain ⟨-, -, hty, hshell, -⟩ := hb.members
  unfold makeClone
  cases hx : e.symbol with
  | none =>
    refine ends_bind.2 ((ends_of_error (symbolOf_eq_error he hx)).2 ?_)
    exact .early (by simp) (by simp [hx])
  | some x =>
  refine ends_bind.2 ((ends_of_ok (symbolOf_eq he hx)).2 ?_)
  refine ends_bind.2 (ends_symbol.2 ⟨fun named hnamed => ?_, fun hmissing => ?_⟩)
  swap
  · exact .early (by simp) fun y hy => Option.some.inj (hx.symm.trans hy) ▸ hmissing
  have hlt := (Array.getElem?_eq_some_iff.1 (SymbolTable.find_eq_ok_iff.1 hnamed)).1
  refine ends_bind.2 ((ends_openClone stamp named he hshell hty).imp ?_ fun _ _ he => he)
  rintro _ t ⟨d, rfl, hkind, hdrafts, htp, hsite⟩
  have herase : (s.pending.insert base d.clone).erase base = s.pending :=
    OrderedMap.erase_insert_of_not_mem hpending _
  -- the clone is filled while it is pending
  refine ends_bind.2 (ends_whilePending.2 ?_)
  rw [htp]
  have hfilling : Filling cl s { t with pending := s.pending.insert base d.clone } d []
      b.shell [] [] { t with pending := s.pending.insert base d.clone } :=
    ⟨hsite.of_pending, .start, rfl, by simp [Ty.MadeOf, b.members_shell]⟩
  refine (hfilling.fillClone hcl stamp he hb hkind.symm hx hlt).imp ?_ ?_
  swap
  · rintro y u ⟨⟨vs, body, hstops, hentry, hmade⟩, hkeeps, hp⟩
    rw [hp, herase]
    exact .late hdrafts hstops hentry hmade hkeeps
  rintro node u ⟨hsymbol, hclone, fields, vs, body, hfields, hfilled, hf⟩
  rw [hfilled.pending, herase]
  -- what is done after that could as well be done before
  have hlate : ∀ {y w names}, SiteProgress s d names body { u with pending := s.pending } w →
      y ≠ .unending → Hindrance ctx s e d.holder vs { w with pending := u.pending } →
      Abandons ctx cl s base e y w := by
    intro y w names hg hy hindrance
    have hw : w = { w with pending := s.pending } := by
      rw [← hg.changes.pending]
    rw [hw]
    refine .late (t := { w with pending := u.pending }) hdrafts ?_ hg.site.clone_entry hf.madeOf
      hg.site.of_pending.keeps
    exact .work List.prefix_rfl (.work hfilled.visits hg.changes.of_pending) ⟨hy, hindrance⟩
  have hsite' : Site s d (fields.values.map (·.name)) body { u with pending := s.pending } :=
    hfilled.site.of_pending
  refine ends_bind.2 ((ends_attachInitializer hsite'.progress ctx ?_ ?_).imp ?_ ?_)
  · exact hsymbol
  · exact hclone
  swap
  · rintro y w ⟨hy, hg, name, hbound⟩
    obtain ⟨f, hf, heq⟩ := List.mem_map.1 hbound
    exact hlate hg hy (.initializerName hfields hf heq)
  rintro ⟨-, node'⟩ w ⟨names, hg⟩
  obtain ⟨symbol, _, _, ho⟩ := hg.site.scope
  refine ends_bind.2 ((ends_registerDefinition ho.found _ _).imp ?_ ?_)
  swap
  · rintro y _ ⟨hy, rfl, definition, hdefined, hsame⟩
    exact hlate hg hy (.registered hdefined hsame)
  rintro - _ ⟨definition, hdefinition, rfl⟩
  have hw : w.pending = s.pending := hg.changes.pending
  have hdone : Clones cl s base e d.clone
      { w with
        pending := s.pending
        package :=
          { w.package with typeDefinitions := w.package.typeDefinitions ++ [definition] } } :=
    .intro (t := { w with pending := u.pending }) hdrafts
      (.work hfilled.visits hg.changes.of_pending) hg.site.clone_entry
      (hf.mono fun _ hfailed => hsite'.failed hg.changes hfailed) hg.site.of_pending.keeps
      (congrArg (·.symbol) hdefinition) (congrArg (·.ty) hdefinition)
  rw [← hw] at hdone
  exact ends_pure.2 hdone

end MakeClone

end StructuralTypes
