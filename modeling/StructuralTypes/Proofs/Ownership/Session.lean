import StructuralTypes.Proofs.Attachment.Session
import StructuralTypes.Proofs.Composition
import StructuralTypes.Proofs.Ownership.Table
import StructuralTypes.Proofs.Population.Structure
import StructuralTypes.Proofs.Unison.Session

/-!
# Steps that clone nothing

`Owning inner outer x` says that the operation `x`, when it ends well, has cloned structures for
these owners. All steps that an operation is made of clone nothing: they add no symbols of types,
and where they change what is there, types keep their fields and symbols their owners.

Results:
* `Session.ClonesNothing.of_grows`, `Session.ClonesNothing.of_change`,
  `Session.ClonesNothing.of_changeType`: additions and changes.
* `composes_owning`: two operations in a row.
* `owning_attachInitializer`: an initializer is no clone.
-/

namespace StructuralTypes

@[simp] theorem Ty.fieldSymbols_withRest (rest : TypeId) (ty : Ty) :
    (ty.withRest rest).fieldSymbols = ty.fieldSymbols := by
  simp [fieldSymbols]

namespace Session

variable {s t : Session} {y : SymbolId} {ty : TypeId}

/-- Symbols keep their owners and types, and stay those of types; and types keep their fields. -/
theorem Continues.of_kept
    (hsymbols : ∀ y a, s.symbols.find y = .ok a → ∃ b, t.symbols.find y = .ok b ∧
      b.owner = a.owner ∧ b.ty = a.ty ∧ b.typeLinks?.isSome = a.typeLinks?.isSome)
    (htypes : ∀ ty e, s.types.find ty = .ok e → ∃ e', t.types.find ty = .ok e' ∧
      e'.ty.fieldSymbols = e.ty.fieldSymbols) : s.Continues t where
  structureSymbol y owner ty xs hy := by
    obtain ⟨a, e, ha, hlinks, howner, hty, he, hxs⟩ := hy
    obtain ⟨b, hb, hbowner, hbty, hblinks⟩ := hsymbols y a ha
    obtain ⟨e', he', hfields⟩ := htypes ty e he
    exact ⟨b, e', hb, hblinks.trans hlinks, hbowner.trans howner, hbty.trans hty, he',
      hfields.trans hxs⟩
  old y hlt hy := by
    obtain ⟨b, hb, hlinks⟩ := hy
    obtain ⟨a, ha⟩ := SymbolTable.exists_find hlt
    obtain ⟨b', hb', -, -, hsame⟩ := hsymbols y a ha
    obtain rfl := Except.ok.inj (hb.symm.trans hb')
    exact ⟨a, ha, hsame.symm.trans hlinks⟩
  symbols_le := by
    refine Nat.not_lt.1 fun hlt => ?_
    let y : SymbolId := ⟨t.symbols.symbols.size⟩
    obtain ⟨a, ha⟩ := SymbolTable.exists_find (show y.index < s.symbols.symbols.size from hlt)
    obtain ⟨b, hb, -⟩ := hsymbols y a ha
    exact absurd (SymbolTable.lt_of_find hb) (Nat.lt_irrefl _)
  types_le := by
    refine Nat.not_lt.1 fun hlt => ?_
    let ty : TypeId := ⟨t.types.entries.size⟩
    obtain ⟨e, he⟩ := TypeTable.exists_find (show ty.index < s.types.entries.size from hlt)
    obtain ⟨e', he', -⟩ := htypes ty e he
    exact absurd (TypeTable.lt_of_find he') (Nat.lt_irrefl _)

theorem Continues.of_grows (hsymbols : Grows s.symbols.symbols t.symbols.symbols)
    (htypes : s.types.Grows t.types) : s.Continues t :=
  .of_kept (fun _ a ha => ⟨a, SymbolTable.find_mono hsymbols ha, rfl, rfl, rfl⟩)
    fun _ e he => ⟨e, htypes.find he, rfl⟩

/-- Symbols are added, but not those of types, and types are added. -/
theorem ClonesNothing.of_grows (hsymbols : Grows s.symbols.symbols t.symbols.symbols)
    (htypes : s.types.Grows t.types)
    (hnew : ∀ y, t.symbols.IsType y → y.index < s.symbols.symbols.size) : s.ClonesNothing t where
  toContinues := .of_grows hsymbols htypes
  none := hnew

/-- No symbol is added. -/
theorem ClonesNothing.of_symbols_eq (hsymbols : t.symbols.symbols = s.symbols.symbols)
    (htypes : s.types.Grows t.types) : s.ClonesNothing t :=
  .of_grows (hsymbols ▸ .refl _) htypes fun _ hy => hsymbols ▸ hy.lt_size

/-- A symbol is added that is not that of a type. -/
theorem ClonesNothing.of_add {kind : SymbolKind} (hkind : ∀ info, kind ≠ .type info)
    (d : Declaration) : s.ClonesNothing { s with symbols := (s.symbols.add kind d).2 } := by
  refine .of_grows (SymbolTable.grows_add _ _ _) (Grows.refl _) fun y hy => ?_
  obtain ⟨a, ha, hlinks⟩ := hy
  obtain ⟨info, hinfo⟩ := Option.isSome_iff_exists.1 hlinks
  rw [SymbolTable.find_eq_ok_iff] at ha
  simp only [SymbolTable.add, Array.getElem?_push] at ha
  split at ha
  · cases ha
    exact absurd (Symbol.typeLinks?_eq_some_iff.1 hinfo) (hkind info)
  · exact (Array.getElem?_eq_some_iff.1 ha).1

/-- A symbol is changed, but not in what it is owned by and stands for. -/
theorem ClonesNothing.of_change {symbols : SymbolTable} {f : Symbol → Symbol}
    (h : s.symbols.change y f = .ok symbols)
    (hf : ∀ a, (f a).owner = a.owner ∧ (f a).ty = a.ty ∧
      (f a).typeLinks?.isSome = a.typeLinks?.isSome) : s.ClonesNothing { s with symbols } := by
  obtain ⟨a, ha, rfl⟩ := SymbolTable.change_eq_ok h
  refine ⟨.of_kept (fun x b hb => ?_) fun _ e he => ⟨e, he, rfl⟩, fun x hx => ?_⟩
  · by_cases hxy : x = y
    · subst hxy
      obtain rfl := Except.ok.inj (ha.symm.trans hb)
      exact ⟨f a, SymbolTable.find_set_self ha _, hf a⟩
    · have hne : y.index ≠ x.index := fun h => hxy (congrArg SymbolId.mk h.symm)
      refine ⟨b, ?_, rfl, rfl, rfl⟩
      rw [SymbolTable.find_eq_ok_iff] at hb ⊢
      rwa [Array.getElem?_setIfInBounds_ne hne]
  · simpa using hx.lt_size

/-- A type is changed, but not in the symbols of its fields. -/
theorem ClonesNothing.of_changeType {e : TypeEntry} {f : TypeEntry → TypeEntry}
    (he : s.types.find ty = .ok e) (hf : ∀ e, (f e).ty.fieldSymbols = e.ty.fieldSymbols) :
    s.ClonesNothing { s with types := ⟨s.types.entries.setIfInBounds ty.index (f e)⟩ } := by
  refine ⟨.of_kept (fun _ a ha => ⟨a, ha, rfl, rfl, rfl⟩) fun x d hd => ?_, fun _ hx => hx.lt_size⟩
  by_cases hx : x = ty
  · subst hx
    obtain rfl := Except.ok.inj (he.symm.trans hd)
    exact ⟨f e, TypeTable.find_set_self he _, hf e⟩
  · exact ⟨d, TypeTable.find_set_of_ne hx _ hd, rfl⟩

end Session

namespace Synth

variable {α : Type} {inner outer : SymbolId} {ctx : Context}

/-- When the operation ends well, structures have been cloned for these owners. -/
def Owning (inner outer : SymbolId) (x : Synth α) : Prop :=
  ∀ s a t, x s = .ok a t → Session.Owned inner outer s t

/-- Nothing is cloned by a reading, and what two operations clone adds up. -/
theorem composes_owning (inner outer : SymbolId) : Composes (Owning inner outer) where
  inspects hx s a t h := by
    obtain rfl := (hx s).of_ok h
    exact .of_clonesNothing (.refl t)
  bind hx hf s b u h := by
    obtain ⟨a, t, ha, hb⟩ := bind_eq_ok_iff.1 h
    exact (hx s a t ha).trans (hf a t b u hb)

/-! ## Steps -/

theorem owning_addSymbol {kind : SymbolKind} (hkind : ∀ info, kind ≠ .type info)
    (d : Declaration) : Owning inner outer (addSymbol kind d) := by
  rintro s _ _ ⟨⟩
  exact .of_clonesNothing (.of_add hkind d)

theorem owning_addType (e : TypeEntry) : Owning inner outer (addType e) := by
  rintro s _ _ ⟨⟩
  exact .of_clonesNothing (.of_symbols_eq rfl (Grows.push _ _))

theorem owning_remember (ty variant : TypeId) : Owning inner outer (remember ty variant) := by
  rintro s _ _ ⟨⟩
  exact .of_clonesNothing (.of_symbols_eq rfl (Grows.refl _))

theorem owning_define (owner : SymbolId) (name : String) (y : SymbolId) :
    Owning inner outer (define owner name y) := by
  intro s _ t h
  obtain ⟨symbols, hdefine, rfl⟩ := define_eq_ok_iff.1 h
  obtain ⟨-, -, -, -, hsymbols⟩ := SymbolTable.bindings?_defineIn hdefine
  exact .of_clonesNothing (.of_symbols_eq hsymbols (Grows.refl _))

theorem owning_changeTypeLinks (y : SymbolId) (role : SymbolRole) (f : TypeLinks → TypeLinks) :
    Owning inner outer (changeTypeLinks y role f) := by
  have h := composes_owning inner outer
  unfold changeTypeLinks
  refine h.bind (h.inspects (inspects_symbol y)) fun named => ?_
  split
  · intro s _ t h
    obtain ⟨symbols, hchange, rfl⟩ := onSymbols_eq_ok_iff.1 h
    refine .of_clonesNothing (.of_change hchange fun a => ?_)
    unfold Symbol.mapTypeLinks
    split
    · rename_i info hinfo
      exact ⟨rfl, rfl, by rw [Symbol.typeLinks?_eq_some_iff.2 hinfo]; rfl⟩
    · exact ⟨rfl, rfl, rfl⟩
  · exact h.stop rfl

theorem owning_changeType (ty : TypeId) {f : TypeEntry → TypeEntry}
    (hf : ∀ e, (f e).ty.fieldSymbols = e.ty.fieldSymbols) :
    Owning inner outer (changeType ty f) := by
  intro s _ t h
  obtain ⟨e, he, rfl⟩ := changeType_eq_ok_iff.1 h
  exact .of_clonesNothing (.of_changeType he hf)

theorem owning_registerType (d : TypeDefinition) : Owning inner outer (registerType d) := by
  intro s _ t h
  obtain ⟨package, -, rfl⟩ := registerType_eq_ok_iff.1 h
  exact .of_clonesNothing (.of_symbols_eq rfl (Grows.refl _))

/-! ## Initializers -/

/-- None of the symbols that are made for an initializer is that of a structure. -/
theorem owning_createInitializer (plan : InitializerPlan) :
    Owning inner outer (createInitializer ctx plan) := by
  intro s f t h
  cases hname : nameOf plan.ty s with
  | error x u => rw [createInitializer_eq_error ctx hname] at h; cases h
  | ok name u =>
    obtain rfl := (inspects_nameOf plan.ty s).of_ok hname
    rw [createInitializer_eq ctx hname] at h
    cases h
    obtain ⟨hsymbols, -, htypes⟩ := grows_initializerSession u ctx plan name
    refine .of_clonesNothing (.of_grows hsymbols htypes fun y hy => ?_)
    obtain ⟨a, ha, hlinks⟩ := hy
    rw [SymbolTable.find_eq_ok_iff] at ha
    simp only [initializerSession, Array.getElem?_push] at ha
    split at ha
    · cases ha
      cases hlinks
    split at ha
    · cases ha
      cases hlinks
    split at ha
    · cases ha
      cases hlinks
    · exact (Array.getElem?_eq_some_iff.1 ha).1

theorem owning_attachInitializer (node : StructureNode) :
    Owning inner outer (attachInitializer ctx node) :=
  (composes_owning inner outer).attachInitializer owning_createInitializer owning_define
    owning_changeTypeLinks node

end Synth

end StructuralTypes
