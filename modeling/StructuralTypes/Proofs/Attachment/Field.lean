import StructuralTypes.Proofs.Attachment.Table
import StructuralTypes.Proofs.Composition

/-!
# What work on fields upholds

Work on fields adds symbols, binds them, and changes no symbol in what it is linked to. Properties
of symbol tables that survive this are `Robust`, and operations that build or declare fields uphold
all of them, also when they stop.

Results:
* `upholds_addSymbol`, `upholds_define`, `upholds_changeSymbol`: writes to the symbol table.
* **`upholds_buildFields`**, **`upholds_fieldDeclarations`**: work on fields.
-/

namespace StructuralTypes

namespace Synth

open SymbolTable

variable {α β : Type} {I : SymbolTable → Prop} {x : Synth α} {f : α → Synth β}

/-- **Two operations in a row uphold what both uphold.** -/
theorem composes_upholds (I : SymbolTable → Prop) : Composes (Upholds (I ·.symbols)) where
  inspects hx := hx.upholds
  bind hx hf := hx.bind hf

theorem upholds_whilePending {source clone : TypeId} (hx : Upholds (I ·.symbols) x) :
    Upholds (I ·.symbols) (whilePending source clone x) :=
  fun s h => ends_whilePending.2 (hx { s with pending := s.pending.insert source clone } h)

/-! ## Steps -/

section Steps

variable {n : Nat}

theorem upholds_changeType (ty : TypeId) (f : TypeEntry → TypeEntry) :
    Upholds (I ·.symbols) (changeType ty f) := by
  intro s h
  unfold Ends changeType onTypes
  cases hchange : s.types.change ty f <;> simpa only [hchange] using h

theorem upholds_addType (e : TypeEntry) : Upholds (I ·.symbols) (addType e) := fun _ h => h

theorem upholds_nextName (family : NameFamily) (package : PackageId) :
    Upholds (I ·.symbols) (nextName family package) := fun _ h => h

theorem upholds_remember (ty variant : TypeId) : Upholds (I ·.symbols) (remember ty variant) :=
  fun _ h => h

theorem upholds_registerType (d : TypeDefinition) : Upholds (I ·.symbols) (registerType d) := by
  intro s h
  unfold Ends registerType
  cases s.package.registerType d <;> exact h

theorem upholds_registerClass (d : ClassDefinition) : Upholds (I ·.symbols) (registerClass d) := by
  intro s h
  unfold Ends registerClass
  cases s.package.registerClass d <;> exact h

/-- A symbol is added that records nothing. -/
theorem upholds_addSymbol (hI : Robust n I) {kind : SymbolKind} (hkind : kind.Unlinked)
    (d : Declaration) : Upholds (I ·.symbols) (addSymbol kind d) :=
  fun _ h => hI.add _ _ _ hkind h

/-- There are enough symbols before it. -/
theorem upholds_addSymbol_bind (hI : Robust n I) {kind : SymbolKind} (hkind : kind.Unlinked)
    (d : Declaration) {f : SymbolId → Synth β}
    (hf : ∀ y, n ≤ y.index → Upholds (I ·.symbols) (f y)) :
    Upholds (I ·.symbols) (addSymbol kind d >>= f) := by
  refine (upholds_addSymbol hI hkind d).bind_of fun s y t h hy => hf y ?_
  cases hy
  exact hI.size _ h

/-- A name is bound to a symbol that was added. -/
theorem upholds_define (hI : Robust n I) (owner : SymbolId) (name : String) {y : SymbolId}
    (hy : n ≤ y.index) : Upholds (I ·.symbols) (define owner name y) := by
  intro s h
  unfold Ends define onSymbols
  cases hscope : s.symbols.scopeOf owner with
  | error e => simpa [defineIn, hscope, Bind.bind, Except.bind] using h
  | ok id =>
    cases hdefine : s.symbols.define id name y with
    | error e => simpa [defineIn, hscope, hdefine, Bind.bind, Except.bind] using h
    | ok u =>
      have hu := hI.define _ u id name y hy hdefine h
      simpa [defineIn, hscope, hdefine, Bind.bind, Except.bind] using hu

/-- A symbol is changed, but not in what it is linked to. -/
theorem upholds_changeSymbol (hI : Robust n I) (y : SymbolId) {f : Symbol → Symbol}
    (hf : ∀ named, (f named).LinkedAs named) : Upholds (I ·.symbols) (changeSymbol y f) := by
  intro s h
  cases hy : s.symbols.find y with
  | error e => simpa [Ends, changeSymbol, onSymbols, change, hy, Bind.bind, Except.bind] using h
  | ok named => exact (ends_of_ok (changeSymbol_eq hy f)).2 (hI.set _ y named _ hy (hf named) h)

/-- Links of another sort are changed. -/
theorem upholds_changeTypeLinks (hI : Robust n I) (y : SymbolId) (role : SymbolRole)
    {f : TypeLinks → TypeLinks} (hf : ∀ info, (f info).initializer = info.initializer) :
    Upholds (I ·.symbols) (changeTypeLinks y role f) := by
  unfold changeTypeLinks
  refine (upholds_reading _).bind fun named => ?_
  split
  · exact upholds_changeSymbol hI y fun _ => Symbol.linkedAs_mapTypeLinks f hf
  · exact upholds_stop _

/-! ## Fields -/

/-- A field is a variable or a function. -/
theorem ends_specializeField_kind (kind : StructureKind) (d : Declaration) (e : TypeEntry)
    (s : Session) (h : I s.symbols) :
    Ends (specializeField kind d e) s (fun r t => I t.symbols ∧ r.1.Unlinked)
      fun _ t => I t.symbols := by
  unfold specializeField
  refine ends_bind.2
    (((inspects_functionTypeSymbol? e).upholds s h).imp (fun o t ht => ?_) fun _ _ h => h)
  split
  · exact ends_pure.2 ⟨ht, by simp [SymbolKind.Unlinked]⟩
  · split <;> exact ends_pure.2 ⟨ht, by simp [SymbolKind.Unlinked]⟩

variable {ctx : Context} {cloner : Option Cloner}

/-- The symbol of a field is bound in the scope of the structure. -/
theorem upholds_buildField (hI : Robust n I)
    (hcl : ∀ cl ∈ cloner, ∀ stamp ty, Upholds (I ·.symbols) (cl stamp ty)) (plan : FieldPlan)
    (template : Field) : Upholds (I ·.symbols) (buildField ctx cloner plan template) := by
  unfold buildField
  refine Upholds.bind ?_ fun ty => ?_
  · exact (composes_upholds I).fieldType (fun cl hmem stamp ty _ => hcl cl hmem stamp ty) _
  refine (inspects_fieldDeclaration plan template ty).upholds.bind fun inherited => ?_
  refine (upholds_reading _).bind fun base => (upholds_reading _).bind fun e => ?_
  have hspecialize := ends_specializeField_kind (I := I) plan.kind inherited e
  refine Upholds.bind_of (fun s h => (hspecialize s h).imp (fun _ _ h => h.1) fun _ _ h => h) ?_
  rintro s ⟨kind, d⟩ t h hr
  refine upholds_addSymbol_bind hI ((hspecialize s h).of_ok hr).2 d fun y hy => ?_
  refine (inspects_typeOf y).upholds.bind fun ty' => ?_
  exact (upholds_define hI _ _ hy).bind fun _ => upholds_pure _

theorem upholds_setFields (ty : TypeId) (fields : List Field) :
    Upholds (I ·.symbols) (setFields ty fields) := by
  unfold setFields
  exact upholds_changeType ty _

/-- All fields are built. -/
theorem upholds_buildFields (hI : Robust n I)
    (hcl : ∀ cl ∈ cloner, ∀ stamp ty, Upholds (I ·.symbols) (cl stamp ty)) (p : Population)
    (node : StructureNode) : Upholds (I ·.symbols) (buildFields ctx cloner p node) := by
  unfold buildFields
  refine (inspects_kindOf _).upholds.bind fun sourceKind => ?_
  refine (inspects_kindOf _).upholds.bind fun kind => ?_
  refine (inspects_symbolOf _).upholds.bind fun holder => ?_
  refine (inspects_fieldsOf _).upholds.bind fun templates => ?_
  refine (Upholds.mapM fun f => upholds_buildField hI hcl _ f).bind fun built => ?_
  refine (upholds_setFields _ _).bind fun _ => ?_
  split
  · exact (inspects_sourceReference _ _).upholds.bind fun _ => upholds_pure _
  · exact upholds_pure _

/-- All fields are declared. -/
theorem upholds_fieldDeclarations (hI : Robust n I) (ty : TypeId) (package : PackageId) :
    Upholds (I ·.symbols) (fieldDeclarations ty package) :=
  (composes_upholds I).fieldDeclarations
    (fun d _ => upholds_addSymbol hI (by simp [SymbolKind.Unlinked]) d) ty package

end Steps

end Synth

end StructuralTypes
