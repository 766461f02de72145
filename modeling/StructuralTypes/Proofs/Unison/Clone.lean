import StructuralTypes.Proofs.Readonly.Construction
import StructuralTypes.Proofs.Unison.Field

/-!
# Clones in unison

A clone is named by who asks for it, and so are its initializer and its definition. Everything else
about it is taken from its source. So two runs that clone the same structure make the same clone.

Results:
* `Unison.openClone`, `Unison.fillClone`: the clone is the same while it is being made.
* `Unison.attachInitializer`: it gets the same initializer.
* **`Unison.makeClone`**: two runs make the same clone.
-/

namespace StructuralTypes

open Synth

/-- What a function has of its own is changed alike. -/
theorem Symbol.Alike.mapFunction {a b : Symbol} (h : a.Alike b) (f : FunctionSpec → FunctionSpec) :
    (a.mapFunction f).Alike (b.mapFunction f) := by
  unfold Symbol.mapFunction
  rcases SymbolKind.eq_or_of_unlabeled_eq h.kind with hkind | ⟨l, l', ha, hb, -⟩
  · rw [hkind]
    cases a.kind with
    | function info => exact { h with kind := rfl }
    | _ => exact h
  · rw [ha, hb]
    exact h

theorem Synth.Blueprint.node_alike (b : Blueprint) {n n' : StructureNode}
    (hn : n.Alike n') : (b.node n).Alike (b.node n') := by
  unfold Blueprint.node
  cases b.kind with
  | record => exact .record hn
  | object => exact .object hn

namespace Session.Unison

variable {o s s' : Session} {q : Package} {ctx ctx' : Context} {cl cl' : Cloner}
  {stamp stamp' : Stamp} {clone source : TypeId} {x : SymbolId} {b : Blueprint}
  {node node' : StructureNode}

/-! ## Drafts -/

/-- A clone has a name in both runs. -/
theorem cloneName (h : o.Unison q s s') (named named' : Symbol) :
    Jointly (Synth.cloneName stamp named) (Synth.cloneName stamp' named') s s'
      fun name t name' t' => name'.isEmpty = name.isEmpty ∧ o.Unison q t t' := by
  intro name t name' t' hr hr'
  obtain ⟨hname, names, rfl⟩ :=
    (ends_cloneName (E := fun _ _ => True) stamp named).of_ok hr
  obtain ⟨hname', names', rfl⟩ :=
    (ends_cloneName (E := fun _ _ => True) stamp' named').of_ok hr'
  exact ⟨hname'.trans hname.symm, { h with }⟩

theorem addReadonly (h : o.Unison q s s') (source : TypeId) (ty : Ty) :
    Jointly (Synth.addReadonly source ty) (Synth.addReadonly source ty) s s' fun v t v' t' =>
      v' = v ∧ o.types.entries.size ≤ v.index ∧ o.Unison q t t' := by
  refine jointly_bind ((h.entry source).imp ?_)
  rintro _ t e t' ⟨rfl, rfl, rfl, -⟩
  exact h.addType fun _ => Flags.contains_union_right _ _

/-- The same clone is drafted, and both it and its symbol are new. -/
theorem openClone (h : o.Unison q s s') {named named' : Symbol} (hnamed : named.Alike named') :
    Jointly (Synth.openClone stamp source named b) (Synth.openClone stamp' source named' b) s s'
      fun r t r' t' => r' = r ∧ o.types.entries.size ≤ r.1.index ∧
        o.symbols.symbols.size ≤ r.2.index ∧ o.Unison q t t' := by
  unfold Synth.openClone
  refine jointly_bind ((h.cloneName named named').imp ?_)
  rintro name t name' t' ⟨hname, h⟩
  refine jointly_bind ((h.addReadonly source b.shell).imp ?_)
  rintro _ t clone t' ⟨rfl, hclone, h⟩
  refine jointly_bind ((h.addSymbol ?_).imp ?_)
  · exact ⟨hname, congrArg (· ∪ .only .readonly) hnamed.flags, rfl, rfl, rfl, rfl, rfl⟩
  rintro _ t x t' ⟨rfl, hx, h⟩
  refine jointly_bind ((h.openScope hx).imp ?_)
  rintro _ t scope t' ⟨rfl, h⟩
  refine jointly_bind ((h.changeType hclone ?_).imp ?_)
  · exact fun e => ⟨rfl, id⟩
  rintro _ t _ t' h
  exact jointly_pure.2 ⟨rfl, hclone, hx, h⟩

/-! ## Fillings -/

/-- The clone is filled with the same fields. -/
theorem fillClone (h : o.Unison q s s') (ho : o.types.FieldsNamed o.symbols)
    (hcl : o.Concerted q cl cl') (hsource : source.index < o.types.entries.size)
    (hclone : o.types.entries.size ≤ clone.index) :
    Jointly (Synth.fillClone ctx cl stamp source b clone x)
      (Synth.fillClone ctx' cl' stamp' source b clone x) s s' fun n t n' t' =>
        (n.Alike n' ∧ n.ty = some clone ∧ n.symbol = some x) ∧ o.Unison q t t' := by
  unfold Synth.fillClone
  let p : Population :=
    { target := clone, source, package := stamp.package, span := stamp.span
      flags := .only .readonly, immutable := true }
  refine jointly_bind
    ((h.buildFields (p := p) ho hcl hsource hclone stamp'.package stamp'.span ?_).imp ?_)
  · exact ⟨rfl, rfl, .nil, .nil, .none, rfl, rfl⟩
  rintro n t n' t' ⟨hn, hty, hsymbol, h⟩
  have hdeclared : ∀ u u', o.Unison q u u' → Jointly
      (do return ({ n with fields := ← Synth.fieldDeclarations clone stamp.package } :
        StructureNode))
      (do return { n' with fields := ← Synth.fieldDeclarations clone stamp'.package }) u u'
      fun n t n' t' => (n.Alike n' ∧ n.ty = some clone ∧ n.symbol = some x) ∧ o.Unison q t t' := by
    intro u u' hu
    refine jointly_bind ((hu.fieldDeclarations clone _ _).imp ?_)
    rintro fields t fields' t' ⟨hfields, ht⟩
    exact jointly_pure.2 ⟨⟨{ hn with fields := hfields }, hty, hsymbol⟩, ht⟩
  cases b.rest with
  | none => exact hdeclared t t' h
  | some rest =>
    refine jointly_bind ((hcl stamp stamp' rest t t' h).imp ?_)
    rintro _ t v t' ⟨rfl, h⟩
    refine jointly_bind ((h.changeType hclone ?_).imp ?_)
    · exact fun e => ⟨rfl, by simp⟩
    exact fun _ t _ t' h => hdeclared t t' h

/-! ## Initializers -/

theorem nameOf (h : o.Unison q s s') (ty : TypeId) :
    Jointly (Synth.nameOf ty) (Synth.nameOf ty) s s' fun _ t _ t' => t = s ∧ t' = s' := by
  refine jointly_bind ((h.symbolOf ty).imp ?_)
  rintro _ t x t' ⟨rfl, rfl, rfl⟩
  refine jointly_bind ((h.symbol x).imp ?_)
  rintro a t b t' ⟨hab, rfl, rfl, -⟩
  dsimp only
  rw [hab.named]
  split
  · exact jointly_stop
  · exact jointly_pure.2 ⟨rfl, rfl⟩

/-- The same initializer is made, for any name of the structure. -/
theorem createInitializer (h : o.Unison q s s') (hsettings : ctx'.settings = ctx.settings)
    (plan : InitializerPlan) (span : Span) :
    Jointly (Synth.createInitializer ctx plan) (Synth.createInitializer ctx' { plan with span })
      s s' fun f t f' t' => f.Alike f' ∧ o.Unison q t t' := by
  have hattached : ∀ name suffix, (attachedName name suffix).isEmpty = false := by
    simp [attachedName]
  unfold Synth.createInitializer
  rw [hsettings]
  refine jointly_bind (jointly_reading.2 fun package package' _ _ => ?_)
  refine jointly_bind ((h.nameOf plan.ty).imp ?_)
  rintro name t name' t' ⟨rfl, rfl⟩
  have hname : (attachedName name' plan.suffix).isEmpty =
      (attachedName name plan.suffix).isEmpty := by
    rw [hattached, hattached]
  refine jointly_bind ((h.addSymbol ?_).imp ?_)
  · exact ⟨rfl, rfl, rfl, rfl, rfl, rfl, rfl⟩
  rintro _ t receiver t' ⟨rfl, hreceiver, h⟩
  refine jointly_bind ((h.addType (by simp [Ty.fields?])).imp ?_)
  rintro _ t ty t' ⟨rfl, hty, h⟩
  refine jointly_bind ((h.addSymbol ?_).imp ?_)
  · exact ⟨hname, rfl, rfl, rfl, rfl, rfl, rfl⟩
  rintro _ t function t' ⟨rfl, hfunction, h⟩
  refine jointly_bind ((h.openScope hfunction).imp ?_)
  rintro _ t scope t' ⟨rfl, h⟩
  refine jointly_bind ((h.define function receiver _ _).imp ?_)
  rintro _ t _ t' h
  refine jointly_bind ((h.changeSymbol hfunction fun a b hab => hab.mapFunction _).imp ?_)
  rintro _ t _ t' h
  refine jointly_bind ((h.changeSymbol hreceiver ?_).imp ?_)
  · exact fun a b hab => { hab with }
  rintro _ t _ t' h
  refine jointly_bind ((h.addSymbol ?_).imp ?_)
  · exact ⟨hname, rfl, rfl, rfl, rfl, rfl, rfl⟩
  rintro _ t tySymbol t' ⟨rfl, -, h⟩
  refine jointly_bind ((h.changeType hty ?_).imp ?_)
  · exact fun e => ⟨rfl, id⟩
  rintro _ t _ t' h
  exact jointly_pure.2 ⟨⟨rfl, rfl, .some ⟨rfl, rfl⟩, rfl, rfl, rfl⟩, h⟩

/-- An initializer is linked to alike. -/
theorem linkInitializer (h : o.Unison q s s') (hx : o.symbols.symbols.size ≤ x.index)
    (i : InitializerLink) (name : String) (span : Span) :
    Jointly
      (changeTypeLinks x .initializerHolder fun links => { links with initializer := some i })
      (changeTypeLinks x .initializerHolder fun links =>
        { links with initializer := some { i with name, span } }) s s'
      fun _ t _ t' => o.Unison q t t' := by
  unfold changeTypeLinks
  refine jointly_bind ((h.symbol x).imp ?_)
  rintro a t b t' ⟨-, rfl, rfl, -⟩
  cases a.typeLinks? with
  | none => exact jointly_stop
  | some _ =>
    cases b.typeLinks? with
    | none => exact jointly_stop_right
    | some _ => exact h.changeSymbol hx fun a b hab => hab.mapTypeLinks i name span

/-- **The clone gets the same initializer.** -/
theorem attachInitializer (h : o.Unison q s s') (hsettings : ctx'.settings = ctx.settings)
    (clone : TypeId) (hx : o.symbols.symbols.size ≤ x.index) (hnode : node.Alike node')
    (hty : node.ty = some clone) (hsymbol : node.symbol = some x) :
    Jointly (Synth.attachInitializer ctx node) (Synth.attachInitializer ctx' node') s s'
      fun r t r' t' => r.2.Alike r'.2 ∧ o.Unison q t t' := by
  unfold Synth.attachInitializer
  rw [hnode.ty, hnode.symbol, hty, hsymbol, hsettings]
  refine jointly_bind (jointly_pure.2 ?_)
  refine jointly_bind ((h.createInitializer hsettings _ node'.span).imp ?_)
  rintro f t f' t' ⟨hf, h⟩
  dsimp only
  rw [hf.symbol, hf.ty]
  refine jointly_bind ((h.define x f.symbol _ _).imp ?_)
  rintro _ t _ t' h
  refine jointly_bind ((h.linkInitializer hx _ f'.name.name f'.span).imp ?_)
  rintro _ t _ t' h
  exact jointly_pure.2 ⟨⟨rfl, rfl, hnode.fields, hnode.references, .some hf, hnode.sealed,
    hnode.analyzed⟩, h⟩

/-! ## Whole clones -/

/-- The definition of the clone is registered alike. -/
theorem registerDefinition (h : o.Unison q s s') (ty : TypeId) (x : SymbolId) {n n' : TypeNode}
    (hn : n.Alike n') :
    Jointly (Synth.registerDefinition ty x n) (Synth.registerDefinition ty x n') s s'
      fun _ t _ t' => o.Unison q t t' := by
  unfold Synth.registerDefinition draftDefinition
  refine jointly_bind (Jointly.imp (Q := fun d t d' t' => d.Alike d' ∧ o.Unison q t t') ?_ ?_)
  · refine jointly_bind ((h.symbol x).imp ?_)
    rintro a t b t' ⟨hab, rfl, rfl, -⟩
    exact jointly_pure.2 ⟨⟨rfl, rfl, hn, hab.flags⟩, h⟩
  · rintro d t d' t' ⟨hd, h⟩
    exact h.registerType hd

/-- **Two runs that clone the same structure make the same clone.** -/
theorem makeClone (h : o.Unison q s s') (ho : o.types.FieldsNamed o.symbols)
    (hcl : o.Concerted q cl cl') (hsettings : ctx'.settings = ctx.settings)
    (hsource : source.index < o.types.entries.size) :
    Jointly (Synth.makeClone ctx cl stamp source b) (Synth.makeClone ctx' cl' stamp' source b) s s'
      fun v t v' t' => v' = v ∧ o.Unison q t t' := by
  unfold Synth.makeClone
  refine jointly_bind ((h.symbolOf source).imp ?_)
  rintro _ t y t' ⟨rfl, rfl, rfl⟩
  refine jointly_bind ((h.symbol y).imp ?_)
  rintro named t named' t' ⟨hnamed, rfl, rfl, -⟩
  refine jointly_bind ((h.openClone hnamed).imp ?_)
  rintro _ t ⟨clone, x⟩ t' ⟨rfl, hclone, hx, h⟩
  refine jointly_bind ((h.whilePending source clone fun u u' hu =>
    hu.fillClone ho hcl hsource hclone).imp ?_)
  rintro n t n' t' ⟨⟨hn, hty, hsymbol⟩, h⟩
  refine jointly_bind ((h.attachInitializer hsettings clone hx ?_ ?_ ?_).imp ?_)
  · exact { hn with sealed := rfl }
  · exact hty
  · exact hsymbol
  rintro r t r' t' ⟨hr, h⟩
  refine jointly_bind ((h.registerDefinition clone x (Blueprint.node_alike _ hr)).imp ?_)
  rintro _ t _ t' h
  exact jointly_pure.2 ⟨rfl, h⟩

end Session.Unison

end StructuralTypes
