import StructuralTypes.Proofs.Population.Run

/-!
# What is told again

A field is built from the readonly variant of its type and from what that stands for. When it is
built once more, after other work, both are asked for again. In between, the tables have grown, more
variants are known, and a structure has got other fields (`Refields`).

None of this changes where a chain of references ends, so a type whose chain ends stands for the
same as before. What a type in a circle of references stands for does change with the size of the
table. It matters only if a variant is known for a type on the circle.

Results:
* `Refields.implied_eq`: other fields change nothing about references.
* **`Session.AtHand.agree`**: who asks again for a variant gets the same one.
* **`Declares.agree`**: a field that is built again becomes the same.
-/

namespace StructuralTypes

/-! ## Other fields -/

namespace Ty

theorem mapFields_id (ty : Ty) : ty.mapFields id = ty := by
  cases ty <;> rfl

theorem mapFields_mapFields (ty : Ty) (g g' : FieldMap → FieldMap) :
    (ty.mapFields g).mapFields g' = ty.mapFields (g' ∘ g) := by
  cases ty <;> rfl

theorem mapFields_eq_ref_iff {ty : Ty} {g : FieldMap → FieldMap} {target : TypeId} :
    ty.mapFields g = .ref target ↔ ty = .ref target := by
  cases ty <;> simp [mapFields]

@[simp] theorem isUnwritable_mapFields (g : FieldMap → FieldMap) (ty : Ty) :
    (ty.mapFields g).isUnwritable = ty.isUnwritable := by
  cases ty <;> rfl

@[simp] theorem isInvokable_mapFields (g : FieldMap → FieldMap) (ty : Ty) :
    (ty.mapFields g).isInvokable = ty.isInvokable := by
  cases ty <;> rfl

@[simp] theorem isClonable_mapFields (g : FieldMap → FieldMap) (ty : Ty) :
    (ty.mapFields g).isClonable = ty.isClonable := by
  cases ty <;> rfl

theorem mapFields_eq_semanticError_iff {ty : Ty} {g : FieldMap → FieldMap} :
    ty.mapFields g = .semanticError ↔ ty = .semanticError := by
  cases ty <;> simp [mapFields]

end Ty

namespace TypeTable

variable {T U V : TypeTable} {ty base : TypeId} {e : TypeEntry} {n : Nat}

/-- The types of `T` are in `U` as they are, except that structures may have other fields. -/
def Refields (T U : TypeTable) : Prop :=
  ∀ ty e, T.find ty = .ok e → ∃ g, U.find ty = .ok { e with ty := e.ty.mapFields g }

namespace Refields

theorem of_grows (hg : T.Grows U) : T.Refields U := fun ty e he =>
  ⟨id, by rw [Ty.mapFields_id]; exact hg.find he⟩

theorem trans (h : T.Refields U) (h' : U.Refields V) : T.Refields V := fun ty e he => by
  obtain ⟨g, hg⟩ := h ty e he
  obtain ⟨g', hg'⟩ := h' ty _ hg
  exact ⟨g' ∘ g, by rw [← Ty.mapFields_mapFields]; exact hg'⟩

/-- The fields of one structure are replaced. -/
theorem set (he : T.find ty = .ok e) (g : FieldMap → FieldMap) :
    T.Refields ⟨T.entries.setIfInBounds ty.index { e with ty := e.ty.mapFields g }⟩ := by
  intro ty' e' he'
  by_cases hty : ty' = ty
  · subst hty
    obtain rfl := Except.ok.inj (he.symm.trans he')
    exact ⟨g, find_set_self he _⟩
  · exact ⟨id, by rw [Ty.mapFields_id]; exact find_set_of_ne hty _ he'⟩

theorem refersTo (h : T.Refields U) {target : TypeId} (hr : T.RefersTo ty target) :
    U.RefersTo ty target := by
  obtain ⟨e, he, hty⟩ := hr
  obtain ⟨g, hg⟩ := h ty e he
  exact ⟨_, hg, Ty.mapFields_eq_ref_iff.2 hty⟩

theorem resolves (h : T.Refields U) (hr : T.Resolves n ty base) : U.Resolves n ty base := by
  induction hr with
  | here found stops =>
    obtain ⟨g, hg⟩ := h _ _ found
    exact .here hg fun target ht => stops target (Ty.mapFields_eq_ref_iff.1 ht)
  | next refers _ ih => exact .next (h.refersTo refers) ih

/-- A chain that ends in `U` and begins in `T` ends there in `T`, if no reference of `T` leads
nowhere and `U` has no others. -/
theorem resolves_of (h : T.Refields U) (hrefs : ∀ a b, U.RefersTo a b → T.RefersTo a b)
    (hfound : ∀ a b, T.RefersTo a b → ∃ e, T.find b = .ok e) (hty : ∃ e, T.find ty = .ok e)
    (hr : U.Resolves n ty base) : T.Resolves n ty base := by
  induction hr with
  | here found stops =>
    obtain ⟨e, he⟩ := hty
    obtain ⟨g, hg⟩ := h _ _ he
    obtain rfl := Except.ok.inj (found.symm.trans hg)
    exact .here he fun target ht => stops target (Ty.mapFields_eq_ref_iff.2 ht)
  | next refers _ ih =>
    have hstep := hrefs _ _ refers
    exact .next hstep (ih (hfound _ _ hstep))

/-! ### Without additions -/

theorem find_eq_error (hsize : U.entries.size = T.entries.size) {x : Stop}
    (h : T.find ty = .error x) : U.find ty = .error x := by
  unfold find at h ⊢
  split at h
  · cases h
  · rename_i hnone
    have hlt := hsize ▸ Array.getElem?_eq_none_iff.1 hnone
    rw [Array.getElem?_eq_none hlt]
    exact h

section Size

variable (h : T.Refields U) (hsize : U.entries.size = T.entries.size)
include h hsize

/-- Nothing is added, so what is found was there. -/
theorem exists_of_find (he : U.find ty = .ok e) : ∃ e' g, T.find ty = .ok e' ∧
    e = { e' with ty := e'.ty.mapFields g } := by
  obtain ⟨e', he'⟩ := exists_find (hsize ▸ lt_of_find he)
  obtain ⟨g, hg⟩ := h ty e' he'
  exact ⟨e', g, he', Except.ok.inj (he.symm.trans hg)⟩

theorem refersTo_iff {target : TypeId} : U.RefersTo ty target ↔ T.RefersTo ty target := by
  refine ⟨?_, h.refersTo⟩
  rintro ⟨e, he, hty⟩
  obtain ⟨e', g, he', rfl⟩ := h.exists_of_find hsize he
  exact ⟨e', he', Ty.mapFields_eq_ref_iff.1 hty⟩

theorem isReadonly_eq (ty : TypeId) : U.isReadonly ty = T.isReadonly ty := by
  unfold isReadonly
  cases hf : T.find ty with
  | error x => rw [find_eq_error hsize hf]
  | ok e =>
    obtain ⟨g, hg⟩ := h ty e hf
    simp [hg, bind, Except.bind]

theorem impliedWithin_eq (fuel : Nat) (ty : TypeId) :
    U.impliedWithin fuel ty = T.impliedWithin fuel ty := by
  induction fuel generalizing ty with
  | zero => rfl
  | succ fuel ih =>
    rw [impliedWithin, impliedWithin]
    cases hf : T.find ty with
    | error x =>
      rw [find_eq_error hsize hf]
      rfl
    | ok e =>
      obtain ⟨g, hg⟩ := h ty e hf
      rw [hg]
      simp only [bind, Except.bind]
      cases e.ty <;> first | rfl | exact ih _

/-- **Other fields change nothing about references.** -/
theorem implied_eq (ty : TypeId) : U.implied ty = T.implied ty := by
  unfold implied
  rw [hsize]
  exact h.impliedWithin_eq hsize _ ty

theorem unfolds (hu : U.Unfolds ty base e) : ∃ e', T.Unfolds ty base e' := by
  obtain ⟨e', g, he', rfl⟩ := h.exists_of_find hsize hu.found
  refine ⟨e', ?_, ?_, he', ?_, ?_⟩
  · rw [← h.isReadonly_eq hsize]
    exact hu.writable
  · rw [← h.implied_eq hsize]
    exact hu.implied
  · simpa [TypeEntry.isReadonly] using hu.base_writable
  · simpa using hu.clonable

end Size

end Refields

end TypeTable

/-! ## Variants -/

namespace Session

variable {s t u : Session} {ty v v' : TypeId}

/-- What is at hand depends on what is known, on what is readonly, and on references. -/
theorem AtHand.of_alike (h : s.AtHand ty v) (hk : ∀ k, t.known? k = s.known? k)
    (hr : ∀ k, t.types.isReadonly k = s.types.isReadonly k)
    (hi : ∀ k, t.types.implied k = s.types.implied k) : t.AtHand ty v := by
  cases h with
  | known known => exact .known ((hk ty).trans known)
  | readonly unknown readonly => exact .readonly ((hk ty).trans unknown) ((hr ty).trans readonly)
  | baseKnown unknown writable implied known =>
    exact .baseKnown ((hk ty).trans unknown) ((hr ty).trans writable) ((hi ty).trans implied)
      ((hk _).trans known)
  | baseReadonly unknown writable implied base_unknown readonly =>
    exact .baseReadonly ((hk ty).trans unknown) ((hr ty).trans writable) ((hi ty).trans implied)
      ((hk _).trans base_unknown) ((hr _).trans readonly)

/-- If a variant is known for a type in a circle of references that `ty` leads to, one is known for
`ty` itself. -/
def KnowsEnds (s : Session) (ty : TypeId) : Prop :=
  s.known? ty = none → ∀ k, Relation.ReflTransGen s.types.RefersTo ty k → s.known? k ≠ none →
    ∃ n base, s.types.Resolves n k base

/-- A chain of references to a type with a known variant ends. -/
theorem KnowsEnds.resolves (h : s.KnowsEnds ty) (hst : s.Preserves t) (hty : s.known? ty = none)
    {k : TypeId} (hchain : Relation.ReflTransGen t.types.RefersTo ty k) (hk : t.known? k ≠ none) :
    ∃ n base, s.types.Resolves n ty base := by
  have hchain' : Relation.ReflTransGen s.types.RefersTo ty k :=
    Relation.ReflTransGen.mono (fun _ _ => hst.same.symm.refersTo) _ _ hchain
  suffices hends : ∃ n base, s.types.Resolves n k base by
    obtain ⟨n, base, hn⟩ := hends
    obtain ⟨m, hm⟩ := hn.of_chain hchain'
    exact ⟨m, base, hm⟩
  by_cases hold : s.known? k = none
  · -- what has become known was open, so its chain ends
    obtain ⟨base, e, ho⟩ := hst.learns k hold hk
    obtain ⟨n, hn⟩ := (TypeTable.implied_eq_ok_iff_resolves ho.unfolds.found
      (Ty.isClonable_ne_ref ho.unfolds.clonable)).1 ho.unfolds.implied
    exact ⟨n, base, hn⟩
  · exact h hty k hchain' hold

/-- If a variant is known on the way, the references lead to one type before and after. -/
theorem KnowsEnds.implied_agree (h : s.KnowsEnds ty) (hsu : s.Preserves u) (hut : u.Preserves t)
    (hty : u.known? ty = none) {k base base' : TypeId} (hu : u.types.implied ty = .ok base)
    (ht : t.types.implied ty = .ok base') (hchain : Relation.ReflTransGen t.types.RefersTo ty k)
    (hk : t.known? k ≠ none) : base = base' := by
  obtain ⟨n, b, hr⟩ := h.resolves (hsu.trans hut) (hsu.knows.known ty hty) hchain hk
  have hru := hr.grows hsu.types
  obtain rfl := hru.eq_of_implied hu
  exact ((hru.grows hut.types).eq_of_implied ht).symm

/-- **Who asks again for a variant gets the same one**, unless the references lead into a circle
with a known variant. -/
theorem AtHand.agree (hs : s.KnowsEnds ty) (hsu : s.Preserves u) (hut : u.Preserves t)
    (h : u.AtHand ty v) (h' : t.AtHand ty v') : v = v' := by
  have hunknown : u.known? ty = none → t.known? ty = none := fun hn => by
    by_contra hk
    exact h.not_open (hut.learns ty hn hk)
  cases h with
  | known hk => exact (AtHand.known (hut.known hk)).unique h'
  | readonly hn hr => exact (AtHand.readonly (hunknown hn) (hut.types.isReadonly hr)).unique h'
  | @baseKnown base _ hn hw himplied hk =>
    have hw' := hut.types.isReadonly hw
    have hk' := hut.known hk
    cases h' with
    | known hk' => exact absurd (hunknown hn) (by simp [hk'])
    | readonly _ hr => exact absurd (hw'.symm.trans hr) (by simp)
    | baseKnown _ _ himplied' known =>
      obtain rfl := hs.implied_agree hsu hut hn himplied himplied'
        (TypeTable.chain_of_implied himplied') (by simp [known])
      exact Option.some.inj (hk'.symm.trans known)
    | baseReadonly _ _ himplied' hbn =>
      have hchain := Relation.ReflTransGen.mono (fun _ _ => hut.same.refersTo) _ _
        (TypeTable.chain_of_implied himplied)
      obtain rfl := hs.implied_agree hsu hut hn himplied himplied' hchain (by simp [hk'])
      simp [hk'] at hbn
  | @baseReadonly base hn hw himplied hbn hr =>
    have hw' := hut.types.isReadonly hw
    cases h' with
    | known hk' => exact absurd (hunknown hn) (by simp [hk'])
    | readonly => rfl
    | baseKnown _ _ himplied' known =>
      obtain rfl := hs.implied_agree hsu hut hn himplied himplied'
        (TypeTable.chain_of_implied himplied') (by simp [known])
      -- the base is its own variant, so none has become known
      exact absurd (hut.learns base hbn (by simp [known])) (AtHand.readonly hbn hr).not_open
    | baseReadonly => rfl

end Session

/-- A search for what is not open finds it at hand and changes nothing. -/
theorem Synth.atHand_of_not_open {ctx : Context} {n : Nat} {s t : Session} {ty v : TypeId}
    (h : Cloner.Gives (readonlyWithin ctx n) s ty v t) (hn : ¬s.Open ty) :
      t = s ∧ s.AtHand ty v := by
  obtain ⟨m, -, hstep⟩ := stepsTo_of_gives h
  cases hstep with
  | atHand hand => exact ⟨rfl, hand⟩
  | rebuilt opens => exact absurd ⟨_, _, opens⟩ hn
  | cloned opens => exact absurd ⟨_, _, opens⟩ hn

/-! ## Declarations -/

section Declarations

variable {S S' : SymbolTable} {T U : TypeTable} {kind : StructureKind} {d d' : Declaration}
  {e : TypeEntry} {k k' : SymbolKind} {plan plan' : FieldPlan} {f : Field} {v : TypeId}

/-- Other fields change nothing about what a type makes of a field, and neither does the structure
that gets it. -/
theorem SymbolTable.Shapes.transfer (h : S.Shapes kind d e k d') (g : FieldMap → FieldMap)
    (owner : Option SymbolId) :
    S.Shapes kind { d with owner } { e with ty := e.ty.mapFields g } k { d' with owner } := by
  cases h with
  | function invokable symbol found repeats =>
    exact .function (by simpa using invokable) symbol found repeats
  | degraded failed record => exact .degraded (Ty.mapFields_eq_semanticError_iff.2 failed) record
  | plain resolved unrepeated =>
    refine .plain (fun hf => resolved ⟨Ty.mapFields_eq_semanticError_iff.1 hf.1, hf.2⟩) fun hi => ?_
    exact unrepeated (by simpa using hi)

/-- A field whose type is a reference is a variable. -/
theorem SymbolTable.Shapes.of_ref (h : S.Shapes kind d e k d') {target : TypeId}
    (he : e.ty = .ref target) : k = .variable ∧ d' = d := by
  cases h with
  | function invokable => simp [he, Ty.isInvokable] at invokable
  | degraded failed => simp [he] at failed
  | plain => exact ⟨rfl, rfl⟩

/-- **A field that is built again becomes the same**, with the symbol of another structure as the
owner of its symbol. -/
theorem Declares.agree (h : Declares S T plan f v k d) (h' : Declares S' U plan' f v k' d')
    (hS : ∀ x named, S.find x = .ok named → S'.find x = .ok named) (hT : T.Refields U)
    (hrefs : ∀ a b, U.RefersTo a b → T.RefersTo a b)
    (hfound : ∀ a b, T.RefersTo a b → ∃ e, T.find b = .ok e)
    (hplan : plan' = { plan with holder := plan'.holder, span := plan'.span }) :
    k' = k ∧ d' = { d with owner := some plan'.holder } := by
  obtain @⟨o, base, e, template, implied, found, shapes⟩ := h
  obtain @⟨o', base', e', template', implied', found', shapes'⟩ := h'
  obtain rfl := (template.grows hS).unique template'
  have hinherit : plan'.inherit f v o = { plan.inherit f v o with owner := some plan'.holder } := by
    rw [hplan]
    cases o <;> rfl
  have hkind : plan'.kind = plan.kind := by rw [hplan]
  rw [hinherit, hkind] at shapes'
  by_cases href : ∃ target, e.ty = .ref target
  · -- a type in a circle still is
    obtain ⟨target, htarget⟩ := href
    obtain ⟨rfl, rfl⟩ := shapes.of_ref htarget
    suffices href' : ∃ target, e'.ty = .ref target from shapes'.of_ref href'.choose_spec
    by_contra hstops
    rw [not_exists] at hstops
    obtain ⟨n, hn⟩ := (TypeTable.implied_eq_ok_iff_resolves found' hstops).1 implied'
    have hold := hT.resolves_of hrefs hfound (TypeTable.exists_find_of_implied implied found) hn
    obtain ⟨b, hb, hbstops⟩ := hold.base_found
    obtain rfl := hold.eq_of_implied implied
    obtain rfl := Except.ok.inj (found.symm.trans hb)
    exact hbstops target htarget
  · rw [not_exists] at href
    obtain ⟨n, hn⟩ := (TypeTable.implied_eq_ok_iff_resolves found href).1 implied
    obtain rfl := (hT.resolves hn).eq_of_implied implied'
    obtain ⟨g, hg⟩ := hT _ _ found
    obtain rfl := Except.ok.inj (found'.symm.trans hg)
    exact shapes'.unique ((shapes.grows hS).transfer g _)

end Declarations

end StructuralTypes
