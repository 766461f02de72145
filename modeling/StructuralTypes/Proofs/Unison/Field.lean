import StructuralTypes.Proofs.Population.Field
import StructuralTypes.Proofs.Readonly.World
import StructuralTypes.Proofs.Unison.Session

/-!
# Fields in unison

A field says what the user wrote, so it must not show who asked for it: the name that was first
written and the place come from the template. They come from the template's symbol if it has one,
and symbols that were there at the beginning are the same in both runs. All fields of structures
that can still be cloned have such symbols, if none of them named a symbol that was not there.

Results:
* `Unison.declares`: a field is declared alike.
* `Unison.buildField`: it is the same in both runs, and its symbols are alike.
* **`Unison.buildFields`**: so are all fields of a structure.
-/

namespace StructuralTypes

open Synth

/-- All symbols of fields are there. -/
def TypeTable.FieldsNamed (T : TypeTable) (S : SymbolTable) : Prop :=
  ∀ ty e, T.find ty = .ok e → ∀ fields ∈ e.ty.fields?, ∀ f ∈ fields.values, ∀ x ∈ f.symbol,
    x.index < S.symbols.size

instance (T : TypeTable) (S : SymbolTable) : Decidable (T.FieldsNamed S) :=
  decidable_of_iff (∀ e ∈ T.entries.toList, ∀ fields ∈ e.ty.fields?, ∀ f ∈ fields.values,
      ∀ x ∈ f.symbol, x.index < S.symbols.size) <| by
    unfold TypeTable.FieldsNamed
    rw [TypeTable.forall_find_iff]
    simp only [Array.mem_toList_iff]

/-- Two cloners, asked in unison, give the same variant and go on in unison. -/
def Session.Concerted (o : Session) (q : Package) (cl cl' : Cloner) : Prop :=
  ∀ stamp stamp' ty s s', o.Unison q s s' →
    Jointly (cl stamp ty) (cl' stamp' ty) s s' fun v t v' t' => v' = v ∧ o.Unison q t t'

section Declarations

variable {S S' : SymbolTable} {kind : StructureKind} {d d₁ d₁' : Declaration} {e : TypeEntry}
  {k k' : SymbolKind}

theorem SymbolTable.Alike.exists_find (h : S.Alike S') {x : SymbolId} {a : Symbol}
    (ha : S.find x = .ok a) : ∃ b, S'.find x = .ok b ∧ a.Alike b := by
  have hlt : x.index < S'.symbols.size := by
    rw [h.symbols.size]
    exact (Array.getElem?_eq_some_iff.1 (find_eq_ok_iff.1 ha)).1
  obtain ⟨b, hb⟩ := SymbolTable.exists_find hlt
  exact ⟨b, hb, h.find ha hb⟩

/-- What a type makes of a field, it makes of it in any package. -/
theorem SymbolTable.Shapes.alike (hd : S.Shapes kind d e k d₁) (h : S.Alike S')
    (package : PackageId) :
    S'.Shapes kind { d with package } e k { d₁ with package } := by
  cases hd with
  | @function x a signature invokable symbol found repeats =>
    obtain ⟨b, hb, hab⟩ := h.exists_find found
    rw [← hab.flags]
    exact .function invokable symbol hb (hab.functionType?_eq.trans repeats)
  | degraded failed record => exact .degraded failed record
  | plain resolved unrepeated =>
    refine .plain resolved fun hi x hx => ?_
    obtain ⟨a, ha, hnone⟩ := unrepeated hi x hx
    obtain ⟨b, hb, hab⟩ := h.exists_find ha
    exact ⟨b, hb, hab.functionType?_eq.trans hnone⟩

end Declarations

namespace Session.Unison

variable {o s s' t t' : Session} {q : Package} {plan plan' : FieldPlan} {f f₁ f₂ : Field}
  {v : TypeId} {k k' : SymbolKind} {d d' : Declaration} {cl cl' : Cloner} {ctx ctx' : Context}

/-- A field is declared alike. -/
theorem declares (h : o.Unison q s s')
    (hold : ∀ x, f.symbol = some x → x.index < o.symbols.symbols.size)
    (hplan : plan' = { plan with package := plan'.package, span := plan'.span })
    (hd : Declares s.symbols s.types plan f v k d)
    (hd' : Declares s'.symbols s'.types plan' f v k' d') :
    k' = k ∧ d' = { d with package := plan'.package } := by
  obtain @⟨a, base, e, template, implied, found, shapes⟩ := hd
  obtain @⟨b, base', e', template', implied', found', shapes'⟩ := hd'
  rw [h.types] at implied' found'
  obtain rfl := Except.ok.inj (implied.symm.trans implied')
  obtain rfl := Except.ok.inj (found.symm.trans found')
  obtain rfl : b = a := by
    unfold SymbolTable.Describes at template template'
    revert template template' hold
    cases f.symbol with
    | none =>
      rintro - ⟨⟩ ⟨⟩
      rfl
    | some x =>
      rintro hold ⟨ha⟩ ⟨hb⟩
      rw [h.find_eq (hold x rfl) ha hb]
  have hinherit : plan'.inherit f v b = { plan.inherit f v b with package := plan'.package } := by
    rw [hplan]
    cases b <;> rfl
  have hkind : plan'.kind = plan.kind := by rw [hplan]
  rw [hinherit, hkind] at shapes'
  exact shapes'.unique (shapes.alike h.symbols plan'.package)

theorem fieldType (h : o.Unison q s s') (hcl : o.Concerted q cl cl')
    (hplan : plan' = { plan with package := plan'.package, span := plan'.span }) (ty : TypeId) :
    Jointly (Synth.fieldType ctx (some cl) plan ty) (Synth.fieldType ctx' (some cl') plan' ty) s s'
      fun v t v' t' => v' = v ∧ o.Unison q t t' := by
  have himmutable : plan'.immutable = plan.immutable := by rw [hplan]
  unfold Synth.fieldType
  rw [himmutable]
  split
  · exact hcl _ _ ty s s' h
  · exact jointly_pure.2 ⟨rfl, h⟩

/-- **A field is the same in both runs.** -/
theorem buildField (h : o.Unison q s s') (hcl : o.Concerted q cl cl')
    (hplan : plan' = { plan with package := plan'.package, span := plan'.span })
    (hold : ∀ x, f.symbol = some x → x.index < o.symbols.symbols.size) :
    Jointly (Synth.buildField ctx (some cl) plan f) (Synth.buildField ctx' (some cl') plan' f) s s'
      fun f₁ t f₂ t' => f₂ = f₁ ∧ o.Unison q t t' := by
  intro f₁ t f₂ t' hb hb'
  obtain @⟨v, ty, u, k, d, symbols, type, declares, typed, binds⟩ := buildField_eq_ok_iff.1 hb
  obtain @⟨v', ty', u', k', d', symbols', type', declares', typed', binds'⟩ :=
    buildField_eq_ok_iff.1 hb'
  obtain ⟨rfl, hu⟩ := h.fieldType hcl hplan f.ty v u v' u' type type'
  obtain ⟨rfl, rfl⟩ := hu.declares hold hplan declares declares'
  obtain rfl : ty' = ty := Option.some.inj (typed'.symm.trans typed)
  have hholder : plan'.holder = plan.holder := by rw [hplan]
  rw [hholder] at binds'
  have hsize : u'.symbols.symbols.size = u.symbols.symbols.size := hu.symbols.symbols.size
  rw [hsize] at binds'
  have hadd : Jointly (Synth.addSymbol k' d)
      (Synth.addSymbol k' { d with package := plan'.package }) u u' fun x t x' t' =>
        x' = x ∧ o.symbols.symbols.size ≤ x.index ∧ o.Unison q t t' :=
    hu.addSymbol ⟨rfl, rfl, rfl, rfl, rfl, rfl, rfl⟩
  have hdefine := (hadd _ _ _ _ rfl rfl).2.2.define plan.holder ⟨u.symbols.symbols.size⟩
    f.name f.name
  refine ⟨by rw [hsize], hdefine () _ () _ ?_ ?_⟩
  · exact define_eq_ok_iff.2 ⟨symbols, binds, rfl⟩
  · exact define_eq_ok_iff.2 ⟨symbols', binds', rfl⟩

theorem setFields (h : o.Unison q s s') {ty : TypeId} (hty : o.types.entries.size ≤ ty.index)
    (fields : List Field) :
    Jointly (Synth.setFields ty fields) (Synth.setFields ty fields) s s' fun _ t _ t' =>
      o.Unison q t t' :=
  h.changeType hty fun e => ⟨rfl, by simp⟩

/-- The source of fields is referred to alike. -/
theorem sourceReference (h : o.Unison q s s') (source : TypeId) (span span' : Span) :
    Jointly (Synth.sourceReference span source) (Synth.sourceReference span' source) s s'
      fun r t r' t' => r.Alike r' ∧ o.Unison q t t' := by
  refine jointly_bind ((h.symbolOf source).imp ?_)
  rintro _ t x t' ⟨rfl, rfl, rfl⟩
  refine jointly_bind ((h.symbol x).imp ?_)
  rintro a t b t' ⟨-, rfl, rfl, -⟩
  exact jointly_bind (jointly_reading.2 fun _ _ _ _ => jointly_pure.2 ⟨⟨rfl⟩, h⟩)

/-- The symbols of the templates are there, since a structure that was there has them. -/
theorem template_lt (h : o.Unison q s s') (ho : o.types.FieldsNamed o.symbols) {source : TypeId}
    (hsource : source.index < o.types.entries.size) {e : TypeEntry} {templates : FieldMap}
    (he : s.types.find source = .ok e) (htemplates : e.ty.fields? = some templates)
    (hf : f ∈ templates.values) (x : SymbolId) (hx : f.symbol = some x) :
    x.index < o.symbols.symbols.size := by
  obtain ⟨e', he'⟩ := TypeTable.exists_find hsource
  obtain rfl := Except.ok.inj (he.symm.trans (h.types_kept.find he'))
  exact ho source e he' templates htemplates f hf x hx

/-- **All fields of a structure are the same in both runs**, if the structure that has them was
there and the one that gets them was not. -/
theorem buildFields (h : o.Unison q s s') (ho : o.types.FieldsNamed o.symbols)
    (hcl : o.Concerted q cl cl') {p : Population} (hsource : p.source.index < o.types.entries.size)
    (htarget : o.types.entries.size ≤ p.target.index) (package : PackageId) (span : Span)
    {node node' : StructureNode} (hnode : node.Alike node') :
    Jointly (Synth.buildFields ctx (some cl) p node)
      (Synth.buildFields ctx' (some cl') { p with package, span } node') s s'
      fun n t n' t' => n.Alike n' ∧ n.ty = node.ty ∧ n.symbol = node.symbol ∧ o.Unison q t t' := by
  unfold Synth.buildFields
  refine jointly_bind ((h.kindOf p.source).imp ?_)
  rintro _ t sourceKind t' ⟨rfl, rfl, rfl⟩
  refine jointly_bind ((h.kindOf p.target).imp ?_)
  rintro _ t kind t' ⟨rfl, rfl, rfl⟩
  refine jointly_bind ((h.symbolOf p.target).imp ?_)
  rintro _ t holder t' ⟨rfl, rfl, rfl⟩
  refine jointly_bind ((h.fieldsOf p.source).imp ?_)
  rintro _ t templates t' ⟨rfl, rfl, rfl, e, he, htemplates⟩
  refine jointly_bind ((jointly_mapM (R := (· = ·)) (I := o.Unison q) h fun f hf u u' hu =>
    (hu.buildField hcl rfl (h.template_lt ho hsource he htemplates hf)).imp ?_).imp ?_)
  · exact fun f₁ u f₂ u' ⟨hf, hu⟩ => ⟨hf.symm, hu⟩
  rintro built t built' t' ⟨hbuilt, h⟩
  rw [List.forall₂_eq_eq_eq] at hbuilt
  obtain rfl := hbuilt
  refine jointly_bind ((h.setFields htarget built).imp ?_)
  rintro _ t _ t' h
  dsimp only
  split
  · refine jointly_bind ((h.sourceReference p.source _ _).imp ?_)
    rintro r t r' t' ⟨hr, h⟩
    exact jointly_pure.2
      ⟨{ hnode with references := List.rel_append hnode.references (.cons hr .nil) },
      rfl, rfl, h⟩
  · exact jointly_pure.2 ⟨hnode, rfl, rfl, h⟩

/-- A field is declared alike. A symbol that is made for it shows the package, and nothing else. -/
theorem fieldDeclarationNode (h : o.Unison q s s') (f : Field) (package package' : PackageId) :
    Jointly (Synth.fieldDeclarationNode package f) (Synth.fieldDeclarationNode package' f) s s'
      fun v t v' t' => v.Alike v' ∧ o.Unison q t t' := by
  unfold Synth.fieldDeclarationNode
  refine jointly_bind (Jointly.imp (Q := fun x t x' t' => x' = x ∧ o.Unison q t t') ?_ ?_)
  · cases f.symbol with
    | none =>
      refine (h.addSymbol ?_).imp fun x t x' t' ⟨hx, _, h⟩ => ⟨hx, h⟩
      exact ⟨rfl, rfl, rfl, rfl, rfl, rfl, rfl⟩
    | some x => exact jointly_pure.2 ⟨rfl, h⟩
  · rintro _ t x t' ⟨rfl, h⟩
    refine jointly_bind ((h.symbol x).imp ?_)
    rintro a t b t' ⟨-, rfl, rfl, -⟩
    exact jointly_pure.2 ⟨⟨rfl, rfl⟩, h⟩

/-- The fields of a structure are declared alike. -/
theorem fieldDeclarations (h : o.Unison q s s') (ty : TypeId) (package package' : PackageId) :
    Jointly (Synth.fieldDeclarations ty package) (Synth.fieldDeclarations ty package') s s'
      fun fields t fields' t' => List.Forall₂ VariableNode.Alike fields fields' ∧
        o.Unison q t t' := by
  refine jointly_bind ((h.fieldsOf ty).imp ?_)
  rintro _ t fields t' ⟨rfl, rfl, rfl, -⟩
  exact jointly_mapM h fun f _ u u' hu => hu.fieldDeclarationNode f package package'

end Session.Unison

end StructuralTypes
