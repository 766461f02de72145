import StructuralTypes.Proofs.Attachment.Anatomy
import StructuralTypes.Proofs.Readonly.Failure
import StructuralTypes.Proofs.Writing.Session

/-!
# Initializers that cannot be attached

Whatever keeps a structure from getting its initializer shows before anything is bound: that the
node has no type, that the type has no symbol or no name, that there is no scope, or that the name
is taken. What has been made by then is left over, and nothing refers to it.

With one exception. Whether the symbol of the structure can record an initializer is looked at last,
when its scope has got the name already. So if it is not the symbol of a named type, the scope binds
an initializer that is recorded nowhere. `BindsUnrecorded` says that this happens.

Results:
* `Synth.attachInitializer_of_bindsUnrecorded`, `Synth.leavesOver_or_bindsUnrecorded`: the two ways
  to fail.
* **`attachInitializer_onlyAdds_iff`**: a failure leaves everything alone unless it binds an
  initializer that nothing records.
* `defined_binds`: one that does.
-/

namespace StructuralTypes

namespace Synth

variable {ctx : Context} {node : StructureNode} {ty : TypeId} {owner : SymbolId} {s t : Session}
  {name : String} {id : ScopeId} {scope : Scope} {x : Stop}

/-- The structure `ty` has a name, and its symbol a scope, in which that of the initializer is new.
But the symbol is not that of a named type, and so it can record no initializer. -/
structure BindsUnrecorded (ctx : Context) (node : StructureNode) (s : Session) (ty : TypeId)
    (owner : SymbolId) (name : String) (id : ScopeId) (scope : Scope) : Prop where
  /-- The node is of the structure, which this symbol stands for. -/
  presents : node.Presents s.types ty owner
  /-- The structure has a name. -/
  calls : s.symbols.Calls s.types ty name
  /-- The symbol has a scope and no links. -/
  holder_found : ∃ holder, s.symbols.find owner = .ok holder ∧ holder.typeLinks? = none ∧
    holder.scope = some id
  /-- The scope is there. -/
  scope_found : s.symbols.findScope id = .ok scope
  /-- The name of the initializer is new in it. -/
  new : initializerName ctx name ∉ scope.bindings.keys

/-- The session in which the name of an initializer has been bound and nothing more. -/
def unrecordedSession (s : Session) (ctx : Context) (node : StructureNode) (ty : TypeId)
    (owner : SymbolId) (name : String) (id : ScopeId) (scope : Scope) : Session :=
  let made := initializerSession s ctx (attachmentPlan ctx node ty owner) name
  { made with symbols :=
    { made.symbols with
      scopes := made.symbols.scopes.setIfInBounds id.index (attachedScope s ctx name scope) } }

/-- From `s` to `t`, symbols, scopes and types have been added. -/
structure LeavesOver (s t : Session) : Prop where
  /-- The symbols are those of `s` and new ones. -/
  symbols : Grows s.symbols.symbols t.symbols.symbols
  /-- So are the scopes. -/
  scopes : Grows s.symbols.scopes t.symbols.scopes
  /-- So are the types. -/
  types : s.types.Grows t.types
  /-- Nothing else has been changed. -/
  aside : t = { s with symbols := t.symbols, types := t.types }

theorem LeavesOver.refl (s : Session) : LeavesOver s s := ⟨.refl _, .refl _, Grows.refl _, rfl⟩

theorem leavesOver_initializerSession (s : Session) (ctx : Context) (plan : InitializerPlan)
    (name : String) : LeavesOver s (initializerSession s ctx plan name) := by
  obtain ⟨hsymbols, hscopes, htypes⟩ := grows_initializerSession s ctx plan name
  exact ⟨hsymbols, hscopes, htypes, rfl⟩

/-- **The initializer is bound**, and only then it is refused. -/
theorem attachInitializer_of_bindsUnrecorded
    (h : BindsUnrecorded ctx node s ty owner name id scope) :
    attachInitializer ctx node s = .error (Fault.wrongSymbol owner .initializerHolder)
      (unrecordedSession s ctx node ty owner name id scope) := by
  obtain ⟨holder, hfind, hnone, hid⟩ := h.holder_found
  have hmade := leavesOver_initializerSession s ctx (attachmentPlan ctx node ty owner) name
  have hfind' := SymbolTable.find_mono hmade.symbols hfind
  have hscope' := SymbolTable.findScope_mono hmade.scopes h.scope_found
  have hbound : define owner (initializerName ctx name) ⟨s.symbols.symbols.size + 1⟩
      (initializerSession s ctx (attachmentPlan ctx node ty owner) name) =
        .ok () (unrecordedSession s ctx node ty owner name id scope) :=
    define_eq hfind' hid hscope' h.new
  have hrefused := changeTypeLinks_eq_error
    (s := unrecordedSession s ctx node ty owner name id scope) hfind' hnone .initializerHolder
    fun info => { info with initializer := some (initializerLink s ctx node name) }
  rw [attachInitializer_of_calls h.presents h.calls, bind_of_ok hbound]
  exact bind_of_error hrefused

/-- For a structure with a name, the initializer that is not attached is not even bound, or bound
and not recorded. -/
theorem leavesOver_or_bindsUnrecorded_of_calls {b : Extent}
    (htables : ClosedTables b s.symbols s.types) (hin : Within b node)
    (hnode : node.Presents s.types ty owner)
    (hname : s.symbols.Calls s.types ty name) (h : attachInitializer ctx node s = .error x t) :
    LeavesOver s t ∨ ∃ id scope, BindsUnrecorded ctx node s ty owner name id scope := by
  have hmade := leavesOver_initializerSession s ctx (attachmentPlan ctx node ty owner) name
  have howner := within_of_presents htables hin hnode
  rw [attachInitializer_of_calls hnode hname] at h
  rcases bind_eq_error_iff.1 h with hdefine | ⟨⟨⟩, u, hdefine, hlinks⟩
  · -- the name is not bound, so nothing has been written to
    have hends : Ends (define owner (initializerName ctx name) ⟨s.symbols.symbols.size + 1⟩)
        (initializerSession s ctx (attachmentPlan ctx node ty owner) name) (fun _ _ => True)
        fun _ u => LeavesOver s u :=
      ends_onSymbols.2 ⟨fun _ _ => trivial, fun _ _ => hmade⟩
    exact .inl (hends.of_error hdefine)
  · obtain ⟨symbols, hdefineIn, rfl⟩ := define_eq_ok_iff.1 hdefine
    obtain ⟨m, hm, hnew, -, hsame⟩ := SymbolTable.bindings?_defineIn hdefineIn
    obtain ⟨holder, id, scope, hfind, hid, hscope, rfl⟩ := SymbolTable.bindings?_eq_some_iff.1
      (htables.bindings?_of_grows howner hmade.symbols hmade.scopes hm)
    refine .inr ⟨id, scope, hnode, hname, ⟨holder, hfind, ?_, hid⟩, hscope, hnew⟩
    -- a symbol that has links can record the function
    cases hkind : holder.typeLinks? with
    | none => rfl
    | some info =>
      have hfind' : symbols.find owner = .ok holder :=
        SymbolTable.find_mono (hsame ▸ hmade.symbols) hfind
      have hrecorded := changeTypeLinks_eq (s := { initializerSession s ctx
        (attachmentPlan ctx node ty owner) name with symbols }) hfind'
        (Symbol.typeLinks?_eq_some_iff.1 hkind) .initializerHolder
        fun info => { info with initializer := some (initializerLink s ctx node name) }
      rw [bind_of_ok hrecorded] at hlinks
      cases hlinks

/-- **If no initializer is attached, nothing that was there is changed**, or one is bound and not
recorded. -/
theorem leavesOver_or_bindsUnrecorded {b : Extent} (htables : ClosedTables b s.symbols s.types)
    (hin : Within b node) (h : attachInitializer ctx node s = .error x t) :
    LeavesOver s t ∨
      ∃ ty owner name id scope, BindsUnrecorded ctx node s ty owner name id scope := by
  cases hty : node.ty with
  | none =>
    unfold attachInitializer at h
    rw [hty] at h
    cases h
    exact .inl (.refl _)
  | some ty =>
    have hfound : Inspects (node.symbol.elim (symbolOf ty) pure : Synth SymbolId) := by
      cases node.symbol with
      | none => exact inspects_symbolOf ty
      | some y => exact inspects_pure y
    have hrun := h
    unfold attachInitializer at hrun
    rw [hty] at hrun
    rcases bind_eq_error_iff.1 hrun with hmissing | ⟨owner, u, howner, hmake⟩
    · obtain ⟨rfl, -⟩ := (hfound s).of_error hmissing
      exact .inl (.refl _)
    · obtain ⟨rfl, hnode⟩ := (structureSymbol_eq_ok_iff hty).1 howner
      cases hname : nameOf ty u with
      | ok name v =>
        obtain ⟨rfl, hcalls⟩ := nameOf_eq_ok_iff.1 hname
        exact (leavesOver_or_bindsUnrecorded_of_calls htables hin hnode hcalls h).imp_right
          fun ⟨id, scope, hunrecorded⟩ => ⟨ty, owner, name, id, scope, hunrecorded⟩
      | error e v =>
        rw [bind_of_error (createInitializer_eq_error ctx hname)] at hmake
        cases hmake
        exact .inl (.refl _)

end Synth

/-! ## In a compilation -/

namespace Compilation

variable {c c' : Compilation} {env : Environment} {position : Nat} {x : Stop}

theorem OnlyAdds.refl (c : Compilation) : c.OnlyAdds c where
  symbols := .refl _
  scopes := .refl _
  types := Grows.refl _
  aside := ⟨rfl, rfl, rfl, rfl, rfl, rfl⟩

/-- The compilation with another scope at a handle. -/
def setScope (c : Compilation) (id : ScopeId) (scope : Scope) : Compilation :=
  { c with symbols :=
    { c.symbols with scopes := c.symbols.scopes.setIfInBounds id.index scope } }

/-- The structure of a stored node has a name, and its symbol `owner` the scope `scope`, in which
`fullName`, the name of its initializer, is new. But the symbol is not that of a named type. -/
structure BindsUnrecorded (c : Compilation) (env : Environment) (position : Nat) (owner : SymbolId)
    (fullName : String) (id : ScopeId) (scope : Scope) : Prop where
  /-- The package is there. -/
  package_found : ∃ package, c.packages[env.package]? = some package
  /-- So is the node, which is of a structure with a name. -/
  node_found : ∃ tree node ty name, c.nodes[position]? = some tree ∧
    tree.structure? = some node ∧ node.Presents c.types ty owner ∧
    c.symbols.Calls c.types ty name ∧ fullName = attachedName name c.settings.initializerSuffix
  /-- The symbol has a scope, but cannot record an initializer. -/
  holder_found : ∃ holder, c.symbols.find owner = .ok holder ∧ holder.typeLinks? = none ∧
    holder.scope = some id
  /-- The scope is there. -/
  scope_found : c.symbols.findScope id = .ok scope
  /-- The name is new in it. -/
  new : fullName ∉ scope.bindings.keys

/-- An initializer that is not attached was to be attached in a session, or there was not even
that. -/
theorem session_of_attachInitializer_eq_error
    (hr : attachInitializer env position c = .error x c') :
    c' = c ∨ ∃ tree node package t, c.nodes[position]? = some tree ∧
      tree.structure? = some node ∧ c.packages[env.package]? = some package ∧
      Synth.attachInitializer ⟨c.settings, env.scopeOwner⟩ node (c.session package {}) =
        .error x t ∧ c' = c.keep env.package {} t := by
  suffices h : Ends (attachInitializer env position) c (fun _ _ => True) fun x d =>
      d = c ∨ ∃ tree node package t, c.nodes[position]? = some tree ∧
        tree.structure? = some node ∧ c.packages[env.package]? = some package ∧
        Synth.attachInitializer ⟨c.settings, env.scopeOwner⟩ node (c.session package {}) =
          .error x t ∧ d = c.keep env.package {} t from (ends_of_error hr).1 h
  unfold attachInitializer
  refine ends_bind.2 (ends_node.2 ⟨fun tree htree => ends_bind.2 ?_, fun _ => .inl rfl⟩)
  cases hnode : tree.structure? with
  | none =>
    refine ends_bind.2 (ends_node.2 ⟨fun tree' htree' => ?_, fun _ => .inl rfl⟩)
    obtain rfl := Option.some.inj (htree.symm.trans htree')
    rw [hnode]
    exact .inl rfl
  | some node =>
    rw [ends_of_ok (structureNode_eq_ok_iff.2 ⟨tree, htree, hnode, rfl⟩), ends_bind]
    cases hpackage : c.packages[env.package]? with
    | none => exact (ends_synthesize_of_none hpackage).2 (.inl rfl)
    | some package =>
      refine (ends_synthesize hpackage).2 (ends_iff.2 ⟨fun _ _ _ => trivial, ?_⟩)
      exact fun e t he => .inr ⟨tree, node, package, t, htree, hnode, rfl, he, rfl⟩

/-- What a session has left over is all that is left of it. -/
theorem onlyAdds_keep {package : Package} {t : Session}
    (hpackage : c.packages[env.package]? = some package)
    (h : Synth.LeavesOver (c.session package {}) t) : c.OnlyAdds (c.keep env.package {} t) := by
  have hsame : t.package = package ∧ t.names = c.names ∧ t.memo = c.memo 0 ∧
      t.pending = c.pending 0 := by
    rw [h.aside]
    exact ⟨rfl, rfl, rfl, rfl⟩
  have haside : (c.keep env.package {} t).packages = c.packages ∧
      (c.keep env.package {} t).memo = c.memo ∧ (c.keep env.package {} t).pending = c.pending :=
    untouched_keep hpackage hsame.1 hsame.2.2.1 hsame.2.2.2
  exact ⟨h.symbols, h.scopes, h.types, haside.1, hsame.2.1, rfl, rfl, haside.2⟩

section BindsUnrecorded

variable {owner : SymbolId} {fullName : String} {id : ScopeId} {scope : Scope}

/-- **The name of the initializer is bound**, to a function that nothing records; else nothing is
changed. -/
theorem BindsUnrecorded.attachInitializer_eq
    (h : c.BindsUnrecorded env position owner fullName id scope) :
    ∃ d, attachInitializer env position c =
        .error (Fault.wrongSymbol owner .initializerHolder) d ∧
      (c.setScope id { scope with
        bindings := scope.bindings.insert fullName ⟨c.symbols.symbols.size + 1⟩ }).OnlyAdds d := by
  obtain ⟨package, hpackage⟩ := h.package_found
  obtain ⟨tree, node, ty, name, htree, hnode, hpresents, hcalls, rfl⟩ := h.node_found
  let ctx : Context := ⟨c.settings, env.scopeOwner⟩
  have hunrecorded : Synth.BindsUnrecorded ctx node (c.session package {}) ty owner name id scope :=
    ⟨hpresents, hcalls, h.holder_found, h.scope_found, h.new⟩
  let t := Synth.unrecordedSession (c.session package {}) ctx node ty owner name id scope
  have hstop : synthesize env {} (Synth.attachInitializer · node) c =
      .error (Fault.wrongSymbol owner .initializerHolder) (c.keep env.package {} t) :=
    synthesize_eq_error_iff.2
      (.inr ⟨package, t, hpackage, Synth.attachInitializer_of_bindsUnrecorded hunrecorded, rfl⟩)
  refine ⟨c.keep env.package {} t, ?_, ?_⟩
  · unfold attachInitializer
    rw [bind_of_ok (node_eq_ok_iff.2 ⟨htree, rfl⟩),
      bind_of_ok (structureNode_eq_ok_iff.2 ⟨tree, htree, hnode, rfl⟩)]
    exact bind_of_error hstop
  · have hlt := (Array.getElem?_eq_some_iff.1 (SymbolTable.findScope_eq_ok_iff.1 h.scope_found)).1
    obtain ⟨hsymbols, -, htypes⟩ := Synth.grows_initializerSession (c.session package {}) ctx
      (Synth.attachmentPlan ctx node ty owner) name
    have haside := untouched_keep (t := t) hpackage rfl rfl rfl
    refine ⟨hsymbols, ?_, htypes, haside.1, rfl, rfl, rfl, haside.2⟩
    show Grows (c.symbols.scopes.setIfInBounds _ _) ((c.symbols.scopes.push _).setIfInBounds _ _)
    rw [Grows.setIfInBounds_push_of_lt hlt]
    exact .push _ _

/-- So the scope is not what it was. -/
theorem BindsUnrecorded.not_onlyAdds (h : c.BindsUnrecorded env position owner fullName id scope)
    (hr : attachInitializer env position c = .error x c') : ¬c.OnlyAdds c' := by
  obtain ⟨d, hd, hadds⟩ := h.attachInitializer_eq
  rw [hr] at hd
  cases hd
  intro honly
  have hset : (c.setScope id { scope with
      bindings := scope.bindings.insert fullName ⟨c.symbols.symbols.size + 1⟩ }).symbols.findScope
        id = .ok _ := SymbolTable.findScope_set_self h.scope_found _
  have hnow := (SymbolTable.findScope_mono honly.scopes h.scope_found).symm.trans
    (SymbolTable.findScope_mono hadds.scopes hset)
  have hkeys := congrArg (fun s : Scope => s.bindings.keys) (Except.ok.inj hnow)
  refine h.new ?_
  rw [hkeys]
  exact OrderedMap.mem_keys_insert.2 (.inr rfl)

end BindsUnrecorded

/-- **A failure leaves everything alone exactly if it binds no initializer that goes unrecorded.**
If it does, only the name is bound, and the symbol that would have to record it is as it was. -/
theorem attachInitializer_onlyAdds_iff (c c' : Compilation) (env : Environment) (position : Nat)
    (x : Stop) (hc : c.Closed) (hr : attachInitializer env position c = .error x c') :
    (c.OnlyAdds c' ↔
      ¬∃ owner fullName id scope, c.BindsUnrecorded env position owner fullName id scope) ∧
      ∀ owner fullName id scope, c.BindsUnrecorded env position owner fullName id scope →
        x = Fault.wrongSymbol owner .initializerHolder ∧
          (c.setScope id { scope with
            bindings := scope.bindings.insert fullName ⟨c.symbols.symbols.size + 1⟩ }).OnlyAdds
              c' := by
  refine ⟨⟨?_, fun hnot => ?_⟩, fun owner fullName id scope h => ?_⟩
  · rintro honly ⟨owner, fullName, id, scope, h⟩
    exact h.not_onlyAdds hr honly
  · obtain rfl | ⟨tree, node, package, t, htree, hnode, hpackage, hrun, rfl⟩ :=
      session_of_attachInitializer_eq_error hr
    · exact .refl _
    · have hin : Within c.extent node := (hc.node htree).structure? hnode
      rcases Synth.leavesOver_or_bindsUnrecorded (s := c.session package {}) hc.tables hin hrun with
        hleft | ⟨ty, owner, name, id, scope, h⟩
      · exact onlyAdds_keep hpackage hleft
      · exact absurd ⟨owner, _, id, scope, ⟨package, hpackage⟩,
          ⟨tree, node, ty, name, htree, hnode, h.presents, h.calls, rfl⟩, h.holder_found,
          h.scope_found, h.new⟩ hnot
  · obtain ⟨d, hd, hadds⟩ := h.attachInitializer_eq
    rw [hr] at hd
    cases hd
    exact ⟨rfl, hadds⟩

/-- A record that is defined under a symbol of its own, and a node for it with that symbol. -/
def defined : Compilation :=
  (app [("R", ⟨14⟩)] [appRecord ⟨1⟩ []]).execute
    [.addNode (.record { ty := some ⟨14⟩ }), .register (.synthesized ⟨0, ⟨0⟩⟩ ⟨14⟩ ⟨1⟩ 0),
      .addNode (.record { ty := some ⟨14⟩, symbol := some ⟨2⟩ })]

theorem defined_fails : ∃ c' : Compilation,
    attachInitializer ⟨0, ⟨0⟩⟩ 1 defined =
      .error (Fault.wrongSymbol ⟨2⟩ .initializerHolder) c' ∧ ¬defined.OnlyAdds c' := by
  have hrun : stops? (attachInitializer ⟨0, ⟨0⟩⟩ 1 defined) =
      some (.fault (.wrongSymbol ⟨2⟩ .initializerHolder)) := by
    decide +kernel
  obtain ⟨c', hc'⟩ := stops?_eq_some hrun
  have hafter : defined.after (attachInitializer ⟨0, ⟨0⟩⟩ 1) = c' := by
    rw [Compilation.after, hc']
  have hscope : ∃ scope, defined.symbols.findScope ⟨0⟩ = .ok scope ∧
      (defined.after (attachInitializer ⟨0, ⟨0⟩⟩ 1)).symbols.findScope ⟨0⟩ ≠ .ok scope :=
    ⟨{ id := ⟨0⟩, owner := ⟨2⟩ }, by decide +kernel⟩
  obtain ⟨scope, hbefore, hafter'⟩ := hscope
  rw [hafter] at hafter'
  exact ⟨c', hc', fun h => hafter' (SymbolTable.findScope_mono h.scopes hbefore)⟩

/-- Its scope gets an initializer that nothing records. -/
theorem defined_binds : defined.Closed ∧ ∃ (f : Fault) (c' : Compilation),
    attachInitializer ⟨0, ⟨0⟩⟩ 1 defined = .error f c' ∧ ¬defined.OnlyAdds c' := by
  obtain ⟨c', hr, hbinds⟩ := defined_fails
  exact ⟨by decide +kernel, _, c', hr, hbinds⟩

theorem defined_bindsUnrecorded : ∃ owner fullName id scope,
    defined.BindsUnrecorded ⟨0, ⟨0⟩⟩ 1 owner fullName id scope := by
  obtain ⟨c', hr, hbinds⟩ := defined_fails
  obtain ⟨hiff, -⟩ := attachInitializer_onlyAdds_iff defined c' ⟨0, ⟨0⟩⟩ 1 _ (by decide +kernel) hr
  exact not_not.1 fun hnot => hbinds (hiff.2 hnot)

end Compilation

end StructuralTypes
