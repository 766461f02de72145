import StructuralTypes.Proofs.Attachment.Session
import StructuralTypes.Proofs.Faithful.Session
import StructuralTypes.Proofs.Readonly.Opening
import StructuralTypes.Proofs.Writing.Synthesis

/-!
# Clones say the truth

A search for a readonly variant keeps nodes faithful, whether it ends well or not, and the node of
each clone that it registers is faithful. It could go wrong in two places. The clone starts as an
empty record that is as sealed as the source, and its node is told separately; and the reference to
the source is made when the fields of the clone are there, which is long before the definition is
registered.

Results:
* `ends_buildFields_faithful`: the reference to a source is qualified.
* `ends_fillClone_faithful`, `ends_attachInitializer_faithful`: what becomes of the node of a clone.
* **`keepsFaithful_makeClone`**, **`keepsFaithful_readonlyWithin`**: the definitions of clones are
  faithful.
-/

namespace StructuralTypes

namespace Synth

variable {s t u : Session} {ctx : Context}

/-! ## Fields -/

/-- A reference to a source is qualified. -/
theorem qualified_of_sourceReference {span : Span} {source : TypeId} {r : TypeReference}
    (h : sourceReference span source s = .ok r t) :
    r.Qualified t.symbols t.types t.package.imports := by
  obtain ⟨rfl, e, y, named, localName, he, hy, hnamed, haliases, rfl⟩ :=
    sourceReference_eq_ok_iff.1 h
  exact ⟨source, e, y, named, rfl, he, hy, hnamed, rfl, haliases⟩

section Fields

variable {cloner : Option Cloner}
  (hcloner : ∀ clone ∈ cloner, ∀ stamp ty, KeepsFaithful (clone stamp ty))
include hcloner

theorem keepsFaithful_buildField (plan : FieldPlan) (template : Field) :
    KeepsFaithful (buildField ctx cloner plan template) :=
  composes_keepsFaithful.buildField hcloner keepsFaithful_addSymbol keepsFaithful_define
    plan template

/-- **The reference to a source is qualified.** The other references of the node are the same. -/
theorem ends_buildFields_faithful (p : Population) (node : StructureNode) :
    Ends (buildFields ctx cloner p node) s
      (fun node' t => s.KeepsFaithful t ∧ ∃ references,
        node' = { node with references := node.references ++ references } ∧
        ∀ r ∈ references, r.Qualified t.symbols t.types t.package.imports)
      fun _ t => s.KeepsFaithful t := by
  have herror : ∀ (e : Stop) (t : Session), s.KeepsFaithful t → s.KeepsFaithful t := fun _ _ h => h
  unfold buildFields
  refine (inspects_kindOf p.source).keepsFaithful.ends_next (.refl s) herror
    fun sourceKind t ht => ?_
  refine (inspects_kindOf p.target).keepsFaithful.ends_next ht herror fun kind t ht => ?_
  refine (inspects_symbolOf p.target).keepsFaithful.ends_next ht herror fun holder t ht => ?_
  refine (inspects_fieldsOf p.source).keepsFaithful.ends_next ht herror fun templates t ht => ?_
  refine (composes_keepsFaithful.mapM (keepsFaithful_buildField hcloner _) _).ends_next ht herror
    fun built t ht => ?_
  have hset : KeepsFaithful (setFields p.target built) :=
    keepsFaithful_changeType fun e => ⟨by simp, rfl⟩
  refine hset.ends_next ht herror fun _ t ht => ?_
  split
  · refine ends_bind.2 (ends_iff.2 ⟨fun r u hr => ?_, fun x u hx => ?_⟩)
    · have hqualified := qualified_of_sourceReference hr
      obtain rfl := (inspects_sourceReference p.span p.source t).of_ok hr
      exact ends_pure.2 ⟨ht, [r], rfl, by simpa using hqualified⟩
    · obtain ⟨rfl, -⟩ := (inspects_sourceReference p.span p.source t).of_error hx
      exact ht
  · exact ends_pure.2 ⟨ht, [], by simp, by simp⟩

theorem keepsFaithful_buildFields (p : Population) (node : StructureNode) :
    KeepsFaithful (buildFields ctx cloner p node) :=
  fun _ => (ends_buildFields_faithful hcloner p node).imp (fun _ _ h => h.1) fun _ _ h => h

end Fields

theorem keepsFaithful_fieldDeclarations (ty : TypeId) (package : PackageId) :
    KeepsFaithful (fieldDeclarations ty package) :=
  composes_keepsFaithful.fieldDeclarations (fun d _ => keepsFaithful_addSymbol .variable d)
    ty package

/-! ## Initializers -/

theorem keepsFaithful_createInitializer (plan : InitializerPlan) :
    KeepsFaithful (createInitializer ctx plan) := by
  intro s
  cases hname : nameOf plan.ty s with
  | error x t => exact (ends_of_error (createInitializer_eq_error ctx hname)).2 (.refl s)
  | ok name t =>
    obtain rfl := (ends_nameOf plan.ty).of_ok hname
    obtain ⟨hsymbols, -, htypes⟩ := grows_initializerSession t ctx plan name
    exact (ends_of_ok (createInitializer_eq ctx hname)).2 (.of_grows hsymbols htypes rfl)

/-- A node that gets an initializer is otherwise the same. -/
theorem ends_attachInitializer_faithful (node : StructureNode) :
    Ends (attachInitializer ctx node) s
      (fun r t => s.KeepsFaithful t ∧ ∃ f, r.2 = { node with initializer := some f })
      fun _ t => s.KeepsFaithful t := by
  have herror : ∀ (e : Stop) (t : Session), s.KeepsFaithful t → s.KeepsFaithful t := fun _ _ h => h
  unfold attachInitializer
  split
  · exact .refl s
  have howner : ∀ ty, KeepsFaithful (node.symbol.elim (symbolOf ty) pure : Synth SymbolId) := by
    intro ty
    cases node.symbol with
    | none => exact (inspects_symbolOf ty).keepsFaithful
    | some y => exact composes_keepsFaithful.pure y
  refine (howner _).ends_next (.refl s) herror fun owner t ht => ?_
  refine (keepsFaithful_createInitializer _).ends_next ht herror fun f t ht => ?_
  refine (keepsFaithful_define owner f.name.name f.symbol).ends_next ht herror fun _ t ht => ?_
  refine (keepsFaithful_changeTypeLinks owner _ _).ends_next ht herror fun _ t ht => ?_
  exact ends_pure.2 ⟨ht, f, rfl⟩

/-! ## Clones -/

/-- The node of a clone says the truth if it is as sealed as the shell that the clone started as. -/
theorem faithful_node {b : Blueprint} {node : StructureNode} {clone : TypeId}
    (hty : node.ty = some clone) (hsealed : node.sealed = b.sealed)
    (hclone : ∃ e, s.types.find clone = .ok e ∧ e.ty.sealed? = b.shell.sealed?)
    (hreferences : ∀ r ∈ node.references, r.Qualified s.symbols s.types s.package.imports) :
    (b.node node).Faithful s.symbols s.types s.package.imports := by
  obtain ⟨e, he, hshell⟩ := hclone
  unfold Blueprint.shell at hshell
  unfold Blueprint.node
  cases hkind : b.kind with
  | record =>
    rw [hkind] at hshell
    refine ⟨fun m hm => ?_, fun m hm => ?_⟩
    · cases hm
      exact ⟨clone, e, hty, he, by rw [hshell, hsealed]; rfl⟩
    · cases hm
      exact hreferences
  | object =>
    refine ⟨fun m hm => ?_, fun m hm => ?_⟩
    · cases hm
    · cases hm
      exact hreferences

/-- A faithful definition is registered, or nothing is done. -/
theorem ends_registerDefinition_faithful {node : TypeNode}
    (hnode : node.Faithful s.symbols s.types s.package.imports) (ty : TypeId) (y : SymbolId) :
    Ends (registerDefinition ty y node) s (fun _ t => s.KeepsFaithful t)
      fun _ t => s.KeepsFaithful t := by
  unfold registerDefinition
  refine ends_bind.2 ((ends_draftDefinition ty y node).imp ?_ ?_)
  · rintro d _ ⟨rfl, -, -, hd, -⟩
    exact ends_registerType.2 ⟨fun n package hn => .of_registerType (hd ▸ hnode) hn,
      fun _ _ => .refl _⟩
  · rintro _ _ ⟨rfl, -⟩
    exact .refl _

section Clones

variable {cloner : Cloner} (hcloner : ∀ stamp ty, KeepsFaithful (cloner stamp ty))
include hcloner

/-- The node of a clone that has been filled is of the clone, and it refers to the source only. -/
theorem ends_fillClone_faithful (stamp : Stamp) (source : TypeId) (b : Blueprint) (clone : TypeId)
    (y : SymbolId) :
    Ends (fillClone ctx cloner stamp source b clone y) s
      (fun node t => s.KeepsFaithful t ∧ node.ty = some clone ∧
        ∀ r ∈ node.references, r.Qualified t.symbols t.types t.package.imports)
      fun _ t => s.KeepsFaithful t := by
  rw [fillClone_eq]
  refine ends_bind.2
    ((ends_buildFields_faithful (by simpa using hcloner) _ _).imp ?_ fun _ _ h => h)
  rintro _ t ⟨ht, references, rfl, hqualified⟩
  -- what comes after that neither changes nor adds references
  have hfinish := ends_iff.1 (composes_keepsFaithful.finishClone (hcloner stamp)
    (fun rest => keepsFaithful_changeType fun e => ⟨by simp, rfl⟩)
    (keepsFaithful_fieldDeclarations clone stamp.package) b
    { span := stamp.span, ty := some clone, symbol := some y, references := [] ++ references } t)
  refine ends_iff.2 ⟨fun node u hnode => ?_, fun e u hu => ht.trans (hfinish.2 e u hu)⟩
  have hu := hfinish.1 node u hnode
  obtain ⟨fields, rfl⟩ := finishClone_eq_ok hnode
  exact ⟨ht.trans hu, rfl, fun r hr => (hqualified r (by simpa using hr)).mono hu⟩

/-- **The definition of a clone is faithful.** -/
theorem keepsFaithful_makeClone (stamp : Stamp) (source : TypeId) (b : Blueprint) :
    KeepsFaithful (makeClone ctx cloner stamp source b) := by
  intro s
  unfold makeClone
  refine (inspects_symbolOf source).ends_next (fun _ _ => .refl s) fun x _ => ?_
  refine (inspects_symbol x).ends_next (fun _ _ => .refl s) fun named _ => ?_
  refine ends_bind.2 ((ends_openClone_starts stamp source named b).imp ?_ ?_)
  rotate_left
  · rintro _ _ ⟨names, rfl⟩
    exact keepsFaithful_aside s _ _ _
  rintro ⟨clone, z⟩ t hstarts
  have ht : s.KeepsFaithful t := .of_grows hstarts.grows.1 hstarts.grows.2 hstarts.package
  obtain ⟨e, he, hshell, -⟩ := hstarts.find_clone
  refine ends_bind.2 (ends_whilePending.2
    ((ends_fillClone_faithful hcloner stamp source b clone z).imp ?_ fun x u hu => ?_))
  rotate_left
  · exact ((ht.trans (keepsFaithful_aside t _ _ _)).trans hu).trans (keepsFaithful_aside u _ _ _)
  rintro node u ⟨hu, hclone, hreferences⟩
  have htu : t.KeepsFaithful { u with pending := u.pending.erase source } :=
    ((keepsFaithful_aside t _ _ _).trans hu).trans (keepsFaithful_aside u _ _ _)
  refine ends_bind.2
    ((ends_attachInitializer_faithful _).imp ?_ fun _ v hv => (ht.trans htu).trans hv)
  rintro ⟨y, node'⟩ v ⟨huv, f, rfl⟩
  -- the clone is still as sealed as its shell
  obtain ⟨e', he', hsealed, -⟩ := (htu.trans huv).types clone e he
  have hfaithful : (b.node { node with sealed := b.sealed, initializer := some f }).Faithful
      v.symbols v.types v.package.imports :=
    faithful_node hclone rfl ⟨e', he', hshell ▸ hsealed⟩ fun r hr =>
      (hreferences r hr).mono ((keepsFaithful_aside u _ _ _).trans huv)
  have hv := (ht.trans htu).trans huv
  exact ends_bind.2 ((ends_registerDefinition_faithful hfaithful clone z).imp
    (fun _ w hw => ends_pure.2 (hv.trans hw)) fun _ w hw => hv.trans hw)

end Clones

/-- **The search keeps nodes faithful**, at every depth. -/
theorem keepsFaithful_readonlyWithin (ctx : Context) (fuel : Nat) (stamp : Stamp) (ty : TypeId) :
    KeepsFaithful (readonlyWithin ctx fuel stamp ty) := by
  induction fuel generalizing stamp ty with
  | zero => exact composes_keepsFaithful.stop rfl
  | succ fuel ih =>
    exact composes_keepsFaithful.cloneStep (keepsFaithful_makeClone ih stamp) (ih stamp)
      keepsFaithful_addType keepsFaithful_remember ty

theorem keepsFaithful_readonlyVariant (ctx : Context) (stamp : Stamp) (ty : TypeId) :
    KeepsFaithful (readonlyVariant ctx stamp ty) := by
  intro s
  have hs := keepsFaithful_readonlyWithin ctx (cloneDepth s.types.entries.size) stamp ty s
  rw [ends_iff] at hs ⊢
  exact hs

end Synth

end StructuralTypes
