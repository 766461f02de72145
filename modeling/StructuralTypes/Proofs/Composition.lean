import StructuralTypes.Proofs.Writing.Session
import StructuralTypes.Synthesis.Readonly

/-!
# Properties that compose

What an operation keeps is often told by its steps: it holds of all readings, and of two operations
in a row if it holds of both. A property of this sort is said once for the steps that could spoil
it. That the operations made of them have it, too, is not a matter of the property.

Results:
* `Composes.mapM`: what holds for each element holds for the list.
* `Composes.buildField`, `Composes.fieldDeclarations`, `Composes.attachInitializer`,
  `Composes.registerDefinition`: work on one structure.
* `Composes.recordNode`, `Composes.objectNode`, `Composes.errorNode`: nodes.
* **`Composes.cloneStep`**: a step of the search for a readonly variant, if all clones have the
  property.
-/

namespace StructuralTypes

namespace Synth

/-- The property holds of readings, and of two operations in a row if it holds of both. -/
structure Composes (P : {α : Type} → Synth α → Prop) : Prop where
  /-- An operation that changes nothing has it. -/
  inspects : ∀ {α : Type} {x : Synth α}, Inspects x → P x
  /-- Two operations in a row have it. -/
  bind : ∀ {α β : Type} {x : Synth α} {f : α → Synth β}, P x → (∀ a, P (f a)) → P (x >>= f)

theorem inspects_errorDetail (ty : TypeId) : Inspects (errorDetail ty) := by
  unfold errorDetail
  refine (inspects_implied ty).bind fun base => (inspects_entry base).bind fun e => ?_
  split
  · exact inspects_implied _
  · exact inspects_stop rfl

theorem inspects_nameOrEmpty (e : TypeEntry) : Inspects (nameOrEmpty e) := by
  unfold nameOrEmpty
  split
  · exact (inspects_symbol _).bind fun _ => inspects_pure _
  · exact inspects_pure _

theorem inspects_fieldDeclaration (plan : FieldPlan) (template : Field) (ty : TypeId) :
    Inspects (fieldDeclaration plan template ty) := by
  unfold fieldDeclaration
  split
  · exact inspects_pure _
  · exact (inspects_symbol _).bind fun _ => inspects_pure _

theorem inspects_functionTypeSymbol? (e : TypeEntry) : Inspects (functionTypeSymbol? e) := by
  unfold functionTypeSymbol?
  split
  · exact (inspects_symbol _).bind fun _ => inspects_pure _
  · exact inspects_pure _

theorem inspects_specializeField (kind : StructureKind) (d : Declaration) (e : TypeEntry) :
    Inspects (specializeField kind d e) := by
  unfold specializeField
  refine (inspects_functionTypeSymbol? e).bind fun o => ?_
  split
  · exact inspects_pure _
  · split <;> exact inspects_pure _

theorem inspects_sourceReference (span : Span) (source : TypeId) :
    Inspects (sourceReference span source) := by
  unfold sourceReference
  refine (inspects_symbolOf source).bind fun y => (inspects_symbol y).bind fun named => ?_
  exact (inspects_qualifierFor _).bind fun _ => inspects_pure _

/-- What comes after the fields of a clone. -/
def finishClone (cloner : Cloner) (stamp : Stamp) (b : Blueprint) (clone : TypeId)
    (node : StructureNode) : Synth StructureNode := do
  match b.rest with
  | some rest =>
    let rest ← cloner stamp rest
    changeType clone fun e => { e with ty := e.ty.withRest rest }
  | none => pure ()
  let fields ← fieldDeclarations clone stamp.package
  return { node with fields }

/-- First a clone gets its fields. -/
theorem fillClone_eq (ctx : Context) (cloner : Cloner) (stamp : Stamp) (source : TypeId)
    (b : Blueprint) (clone : TypeId) (y : SymbolId) :
    fillClone ctx cloner stamp source b clone y =
      buildFields ctx (some cloner)
        { target := clone, source, package := stamp.package, span := stamp.span
          flags := .only .readonly, immutable := true }
        { span := stamp.span, ty := some clone, symbol := some y } >>=
      finishClone cloner stamp b clone :=
  rfl

/-- After that, only the fields of its node are told. -/
theorem finishClone_eq_ok {cloner : Cloner} {stamp : Stamp} {b : Blueprint} {clone : TypeId}
    {node node' : StructureNode} {s t : Session}
    (h : finishClone cloner stamp b clone node s = .ok node' t) :
    ∃ fields, node' = { node with fields } := by
  unfold finishClone at h
  cases hrest : b.rest with
  | none =>
    simp only [hrest, bind_eq_ok_iff] at h
    obtain ⟨fields, -, -, ⟨⟩⟩ := h
    exact ⟨fields, rfl⟩
  | some rest =>
    simp only [hrest, bind_eq_ok_iff] at h
    obtain ⟨-, -, -, -, -, -, fields, -, -, ⟨⟩⟩ := h
    exact ⟨fields, rfl⟩

namespace Composes

variable {P : {α : Type} → Synth α → Prop} {α β : Type} {ctx : Context}

section Lists

variable (h : Composes P)
include h

theorem pure (a : α) : P (Pure.pure a : Synth α) := h.inspects (inspects_pure a)

theorem stop {e : Stop} (he : e.isDuplicate = false) : P (stop e : Synth α) :=
  h.inspects (inspects_stop he)

theorem map {x : Synth α} (hx : P x) (f : α → β) : P (f <$> x) := by
  rw [map_eq_pure_bind]
  exact h.bind hx fun a => h.pure (f a)

theorem mapM {f : α → Synth β} (hf : ∀ a, P (f a)) (l : List α) : P (l.mapM f) := by
  induction l with
  | nil => exact h.pure []
  | cons a l ih =>
    rw [List.mapM_cons]
    exact h.bind (hf a) fun b => h.bind ih fun bs => h.pure (b :: bs)

/-! ## One structure -/

/-- A cloner is called for a field that is to be readonly. -/
theorem fieldType {cloner : Option Cloner} {plan : FieldPlan}
    (hcloner : ∀ cl ∈ cloner, ∀ stamp ty, stamp.owner = ctx.scopeOwner → P (cl stamp ty))
    (ty : TypeId) : P (fieldType ctx cloner plan ty) := by
  unfold Synth.fieldType
  split
  · split
    · exact hcloner _ (Option.mem_some_self _) _ ty rfl
    · exact h.stop rfl
  · exact h.pure ty

/-- The symbol of a field is added and bound. -/
theorem buildField {cloner : Option Cloner} (hcloner : ∀ cl ∈ cloner, ∀ stamp ty, P (cl stamp ty))
    (hadd : ∀ kind d, P (addSymbol kind d)) (hdefine : ∀ owner name y, P (define owner name y))
    (plan : FieldPlan) (template : Field) : P (buildField ctx cloner plan template) := by
  unfold Synth.buildField
  refine h.bind (h.fieldType (fun cl hcl stamp ty _ => hcloner cl hcl stamp ty) _) fun ty => ?_
  refine h.bind (h.inspects (inspects_fieldDeclaration plan template ty)) fun d => ?_
  refine h.bind (h.inspects (inspects_implied ty)) fun base => ?_
  refine h.bind (h.inspects (inspects_entry base)) fun e => ?_
  refine h.bind (h.inspects (inspects_specializeField plan.kind d e)) fun ⟨kind, d⟩ => ?_
  refine h.bind (hadd kind d) fun y => h.bind (h.inspects (inspects_typeOf y)) fun ty => ?_
  exact h.bind (hdefine plan.holder template.name y) fun _ => h.pure _

/-- A field without a symbol gets one that is declared nowhere. -/
theorem fieldDeclarations (hadd : ∀ d : Declaration, d.owner = none → P (addSymbol .variable d))
    (ty : TypeId) (package : PackageId) : P (fieldDeclarations ty package) := by
  have hnode : ∀ f, P (fieldDeclarationNode package f) := by
    intro f
    unfold fieldDeclarationNode
    refine h.bind ?_ fun y => h.bind (h.inspects (inspects_symbol y)) fun _ => h.pure _
    cases f.symbol with
    | none => exact hadd _ rfl
    | some y => exact h.pure y
  unfold Synth.fieldDeclarations
  exact h.bind (h.inspects (inspects_fieldsOf ty)) fun fields => h.mapM hnode _

theorem attachInitializer (hcreate : ∀ plan, P (createInitializer ctx plan))
    (hdefine : ∀ owner name y, P (define owner name y))
    (hlinks : ∀ y role f, P (changeTypeLinks y role f)) (node : StructureNode) :
    P (attachInitializer ctx node) := by
  unfold Synth.attachInitializer
  split
  · exact h.stop rfl
  · refine h.bind ?_ fun owner => ?_
    · cases node.symbol with
      | none => exact h.inspects (inspects_symbolOf _)
      | some y => exact h.pure y
    refine h.bind (hcreate _) fun f => h.bind (hdefine owner f.name.name f.symbol) fun _ => ?_
    exact h.bind (hlinks owner _ _) fun _ => h.pure _

theorem draftDefinition (ty : TypeId) (y : SymbolId) (node : TypeNode) :
    P (draftDefinition ty y node) :=
  h.bind (h.inspects (inspects_symbol y)) fun _ => h.pure _

theorem registerDefinition (hregister : ∀ d, P (registerType d)) (ty : TypeId) (y : SymbolId)
    (node : TypeNode) : P (registerDefinition ty y node) :=
  h.bind (h.draftDefinition ty y node) hregister

theorem registerClassOf (hfields : ∀ ty package, P (Synth.fieldDeclarations ty package))
    (hregister : ∀ d, P (registerClass d)) (span : Span) (y : SymbolId) :
    P (registerClassOf span y) := by
  unfold Synth.registerClassOf
  refine h.bind (h.inspects (inspects_typeOf y)) fun ty => ?_
  refine h.bind (h.inspects (inspects_requireObject ty)) fun _ => ?_
  refine h.bind (h.inspects (inspects_symbol y)) fun named => ?_
  exact h.bind (hfields ty named.package) fun _ => hregister _

/-! ## Nodes -/

theorem recordNode (hfields : ∀ ty package, P (Synth.fieldDeclarations ty package)) (ty : TypeId)
    (package : PackageId) (span : Span) : P (recordNode ty package span) := by
  unfold Synth.recordNode
  refine h.bind (h.inspects (inspects_requireRecord ty)) fun _ => ?_
  exact h.bind (hfields ty package) fun _ => h.bind (h.inspects (inspects_entry ty)) fun _ =>
    h.pure _

theorem objectNode (hfields : ∀ ty package, P (Synth.fieldDeclarations ty package)) (ty : TypeId)
    (span : Span) : P (objectNode ty span) := by
  unfold Synth.objectNode
  refine h.bind (h.inspects (inspects_requireObject ty)) fun _ => ?_
  refine h.bind (h.inspects (inspects_symbolOf ty)) fun y => ?_
  refine h.bind (h.inspects (inspects_symbol y)) fun named => ?_
  exact h.bind (hfields ty named.package) fun _ => h.pure _

/-- The node of an error type is made of readings and, at most, a made-up name. -/
theorem errorNode (hname : ∀ family package, P (nextName family package)) (ty : TypeId)
    (span : Span) : P (errorNode ty span) := by
  unfold Synth.errorNode
  refine h.bind (h.inspects (inspects_errorDetail ty)) fun detail => ?_
  refine h.bind (h.inspects (inspects_entry detail)) fun e => ?_
  split
  · exact h.pure _
  unfold errorDetailReferenceName
  refine h.bind (h.bind (h.inspects (inspects_nameOrEmpty e)) fun name => ?_) fun _ => h.pure _
  split
  · exact h.bind (h.inspects inspects_packageId) fun package => hname _ package
  · exact h.pure _

/-! ## Variants -/

theorem addReadonly (hadd : ∀ e, P (addType e)) (source : TypeId) (ty : Ty) :
    P (addReadonly source ty) :=
  h.bind (h.inspects (inspects_entry source)) fun _ => hadd _

theorem cloneName (hname : ∀ family package, P (nextName family package)) (stamp : Stamp)
    (named : Symbol) : P (cloneName stamp named) := by
  unfold Synth.cloneName
  split
  · exact hname _ _
  · exact h.pure _

theorem variantAtHand? (ty base : TypeId) : P (variantAtHand? ty base) := by
  unfold Synth.variantAtHand? knownVariant?
  refine h.bind (h.inspects (inspects_reading fun _ => unregistering_ok _)) fun known => ?_
  split
  · exact h.pure _
  · exact h.bind (h.inspects (inspects_isReadonly base)) fun _ => h.pure _

end Lists

theorem finishClone {cloner : Cloner} {stamp : Stamp} {clone : TypeId} (h : Composes P)
    (hcloner : ∀ ty, P (cloner stamp ty))
    (hset : ∀ rest, P (changeType clone fun e => { e with ty := e.ty.withRest rest }))
    (hfields : P (Synth.fieldDeclarations clone stamp.package)) (b : Blueprint)
    (node : StructureNode) : P (finishClone cloner stamp b clone node) := by
  have hdone : P (do
      return { node with fields := ← Synth.fieldDeclarations clone stamp.package } :
        Synth StructureNode) :=
    h.bind hfields fun _ => h.pure _
  unfold Synth.finishClone
  split
  · exact h.bind (hcloner _) fun rest => h.bind (hset rest) fun _ => hdone
  · exact hdone

section Clones

variable {cloner : Cloner} {stamp : Stamp} (h : Composes P)
  (hclone : ∀ source b, P (makeClone ctx cloner stamp source b))
  (hcloner : ∀ ty, P (cloner stamp ty)) (hadd : ∀ e, P (addType e))
include h hclone hcloner hadd

theorem makeVariant? (ty base : TypeId) : P (makeVariant? ctx cloner stamp ty base) := by
  unfold Synth.makeVariant?
  refine h.bind (h.inspects (inspects_entry base)) fun e => ?_
  cases e.ty with
  | placeholder => exact h.stop rfl
  | ref target => exact h.stop rfl
  | record r => exact h.map (hclone base _) _
  | object fields => exact h.map (hclone base _) _
  | map constraint =>
    exact h.bind (hcloner constraint) fun _ => h.map (h.addReadonly hadd base _) _
  | union members =>
    exact h.bind (h.mapM hcloner members) fun _ => h.map (h.addReadonly hadd base _) _
  | any => exact h.map (h.addReadonly hadd base .any) _
  | anydata => exact h.map (h.addReadonly hadd base .anydata) _
  | _ => exact h.pure none

/-- **A variant is at hand, or it is made of those of the parts and remembered.** -/
theorem cloneStep (hremember : ∀ ty variant, P (remember ty variant)) (ty : TypeId) :
    P (cloneStep ctx cloner stamp ty) := by
  unfold Synth.cloneStep
  refine h.bind (h.variantAtHand? ty ty) fun hand => ?_
  split
  · exact h.pure _
  refine h.bind (h.inspects (inspects_implied ty)) fun base => ?_
  refine h.bind (h.variantAtHand? ty base) fun hand => ?_
  split
  · exact h.pure _
  refine h.bind (h.makeVariant? hclone hcloner hadd ty base) fun made => ?_
  split
  · exact h.pure _
  · exact h.bind (hremember _ _) fun _ => h.bind (hremember _ _) fun _ => h.pure _

end Clones

end Composes

end Synth

end StructuralTypes
