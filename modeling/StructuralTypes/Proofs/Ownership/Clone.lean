import StructuralTypes.Proofs.Ownership.Session
import StructuralTypes.Proofs.Readonly.Opening

/-!
# Who owns what is cloned

A structure is cloned for the owner of the stamp. What its fields need is cloned for the owner of
the scope, at whatever depth. The other members, and what is found in maps and unions, are cloned
for the owner of the stamp again.

Results:
* `BuildsAll.owned`: what the fields need comes before the symbol of one of them.
* **`owning_makeClone`**, **`owning_readonlyWithin`**: who owns what is cloned.
-/

namespace StructuralTypes

namespace Session.Starts

variable {s t : Session} {b : Synth.Blueprint} {owner z : SymbolId} {clone : TypeId}

theorem continues (h : s.Starts t b owner clone z) : s.Continues t :=
  .of_grows h.grows.1 h.grows.2

theorem size_eq (h : s.Starts t b owner clone z) :
    t.symbols.symbols.size = s.symbols.symbols.size + 1 := by
  obtain ⟨a, hsymbols, -⟩ := h.symbols
  rw [hsymbols, Array.size_push]

theorem structureSymbol (h : s.Starts t b owner clone z) : t.StructureSymbol z owner clone [] := by
  obtain ⟨a, hsymbols, hlinks, howner, hty⟩ := h.symbols
  obtain ⟨e, he, hshell, -⟩ := h.find_clone
  refine ⟨a, e, ?_, hlinks, howner, hty, he, ?_⟩
  · rw [SymbolTable.find_eq_ok_iff, h.holder_index, hsymbols, Array.getElem?_push_size]
  · rw [Ty.fieldSymbols, hshell, b.fields?_shell]
    rfl

end Session.Starts

namespace Synth

variable {ctx : Context} {s t : Session} {plan : FieldPlan} {f f' : Field} {fs fields : List Field}

/-! ## Fields -/

section Fields

variable {cloner : Option Cloner}
  (hcloner : ∀ clone ∈ cloner, ∀ stamp ty, Owning ctx.scopeOwner stamp.owner (clone stamp ty))
include hcloner

/-- The symbol of a field is the last one that is made for it, and it is not that of a type. -/
theorem Builds.owned (h : Builds ctx cloner plan f s f' t) :
    Session.Owned ctx.scopeOwner ctx.scopeOwner s t ∧ ∃ x, f'.symbol = some x ∧
      x.index < t.symbols.symbols.size ∧ ∀ y, t.symbols.IsType y → y.index < x.index := by
  obtain @⟨v, ty, u, k, d, symbols, type, declares, -, binds⟩ := h
  obtain ⟨-, -, -, -, hsymbols⟩ := SymbolTable.bindings?_defineIn binds
  have hkind : ∀ info, k ≠ .type info := by
    obtain ⟨-, -, -, shapes⟩ := declares
    cases shapes <;> simp
  have hadd : u.ClonesNothing { u with symbols := (u.symbols.add k d).2 } := .of_add hkind d
  have hdefine : ({ u with symbols := (u.symbols.add k d).2 } : Session).ClonesNothing
      { u with symbols } :=
    .of_symbols_eq hsymbols (Grows.refl _)
  have hnothing := hadd.trans hdefine
  -- the cloner is called for the owner of the scope
  have htype : Owning ctx.scopeOwner ctx.scopeOwner (fieldType ctx cloner plan f.ty) :=
    (composes_owning _ _).fieldType (fun cl hcl stamp ty h => h ▸ hcloner cl hcl stamp ty) f.ty
  refine ⟨(htype s v u type).trans (.of_clonesNothing hnothing), _, rfl, ?_, hnothing.none⟩
  dsimp only
  rw [hsymbols, SymbolTable.add, Array.size_push]
  exact Nat.lt_succ_self _

/-- **What is cloned for the fields comes before the symbol of one of them.** -/
theorem BuildsAll.owned (h : BuildsAll ctx cloner plan fs s fields t) :
    Session.Owned ctx.scopeOwner ctx.scopeOwner s t ∧
      (∀ x ∈ fields.filterMap (·.symbol), x.index < t.symbols.symbols.size) ∧
      ∀ y, s.symbols.symbols.size ≤ y.index → t.symbols.IsType y →
        ∃ x ∈ fields.filterMap (·.symbol), y.index < x.index := by
  induction h with
  | @nil s =>
    exact ⟨.of_clonesNothing (.refl s), by simp, fun y hle hy => absurd hy.lt_size (by omega)⟩
  | @cons f f' fs fields s t u first rest ih =>
    obtain ⟨hfirst, x, hx, hlt, hbefore⟩ := first.owned hcloner
    obtain ⟨hrest, hbound, hcovers⟩ := ih
    have hmem : x ∈ (f' :: fields).filterMap (·.symbol) := by simp [hx]
    have htail : ∀ z ∈ fields.filterMap (·.symbol), z ∈ (f' :: fields).filterMap (·.symbol) := by
      intro z hz
      rw [List.filterMap_cons_some hx]
      exact List.mem_cons_of_mem x hz
    refine ⟨hfirst.trans hrest, fun z hz => ?_, fun y hle hy => ?_⟩
    · rw [List.filterMap_cons_some hx] at hz
      rcases List.mem_cons.1 hz with rfl | hz
      · exact Nat.lt_of_lt_of_le hlt hrest.symbols_le
      · exact hbound z hz
    · by_cases hold : y.index < t.symbols.symbols.size
      · exact ⟨x, hmem, hbefore y (hrest.old y hold hy)⟩
      · obtain ⟨z, hz, hyz⟩ := hcovers y (Nat.not_lt.1 hold) hy
        exact ⟨z, htail z hz, hyz⟩

end Fields

/-! ## Clones -/

section Clones

variable {cloner : Cloner} (hsearches : cloner.Searches)
  (hcloner : ∀ stamp ty, Owning ctx.scopeOwner stamp.owner (cloner stamp ty))

include hsearches hcloner in
/-- **A structure gets its fields.** What these need belongs to the owner of the scope. -/
theorem owned_of_buildFields {s₁ t' : Session} {b : Blueprint} {outer z : SymbolId}
    {clone : TypeId} {p : Population} {node node' : StructureNode}
    (hstarts : s.Starts s₁ b outer clone z) (hp : p.target = clone)
    (hbuild : buildFields ctx (some cloner) p node s₁ = .ok node' t') :
    Session.Owned ctx.scopeOwner outer s t' := by
  subst hp
  have hsearches' : ∀ cl ∈ some cloner, cl.Searches := by
    rintro _ ⟨⟩
    exact hsearches
  have hcloner' : ∀ cl ∈ some cloner, ∀ stamp ty,
      Owning ctx.scopeOwner stamp.owner (cl stamp ty) := by
    rintro _ ⟨⟩
    exact hcloner
  obtain @⟨e, d, templates, kind, holder, fields, t, references, -, -, hd, -, hholder, builds, -⟩ :=
    (buildFields_eq_ok_iff hsearches').1 hbuild
  obtain ⟨hfields, hbound, hcovers⟩ := builds.owned hcloner'
  -- the structure is the one that was made
  obtain ⟨d', hd', hshell, hsymbol⟩ := hstarts.find_clone
  obtain rfl := Except.ok.inj (hd'.symm.trans hd)
  obtain rfl := Option.some.inj (hsymbol.symm.trans hholder)
  have hvalues := (builds.values_ofList hsearches' fun _ => ⟨∅, hstarts.scope⟩).1
  have hxs : (d'.withFields fields).ty.fieldSymbols = fields.filterMap (·.symbol) := by
    simp only [TypeEntry.withFields, Ty.fieldSymbols, Ty.fields?_mapFields, hshell, b.fields?_shell,
      Option.map_some, Option.getD_some, hvalues]
  obtain ⟨a, e, ha, hlinks, howner, hty, he, -⟩ :=
    hfields.structureSymbol z outer p.target [] hstarts.structureSymbol
  refine .of_fields hstarts.continues hstarts.holder_index hstarts.size_eq hstarts.clone_index
    (TypeTable.lt_of_find hd) hfields ?_ ?_ ?_ ?_ hbound hcovers
  · rintro y owner ty ys hne ⟨b, e, hb, hlinks, howner, hty, he, hys⟩
    exact ⟨b, e, hb, hlinks, howner, hty, TypeTable.find_set_of_ne hne _ he, hys⟩
  · rfl
  · exact Array.size_setIfInBounds
  · exact ⟨a, _, ha, hlinks, howner, hty, TypeTable.find_set_self he _, hxs⟩

include hsearches hcloner in
/-- **A clone belongs to the owner of the stamp, and what its fields need to the owner of the
scope.** -/
theorem owning_makeClone (stamp : Stamp) (source : TypeId) (b : Blueprint) :
    Owning ctx.scopeOwner stamp.owner (makeClone ctx cloner stamp source b) := by
  intro s v w h
  have haside : ∀ (u : Session) (pending : CloneMap), u.ClonesNothing { u with pending } :=
    fun _ _ => .of_symbols_eq rfl (Grows.refl _)
  unfold makeClone at h
  simp only [bind_eq_ok_iff] at h
  obtain ⟨x, _, hx, named, _, hnamed, ⟨clone, z⟩, s₁, hopen, node, _, hpending, ⟨f, node'⟩, v,
    hattach, n, w', hregister, h⟩ := h
  cases h
  obtain rfl := (inspects_symbolOf source s).of_ok hx
  obtain ⟨-, rfl⟩ := reading_eq_ok_iff.1 hnamed
  obtain ⟨u, hfill, rfl⟩ := whilePending_eq_ok_iff.1 hpending
  rw [fillClone_eq] at hfill
  obtain ⟨built, t', hbuild, hfinish⟩ := bind_eq_ok_iff.1 hfill
  have hstarts := ((ends_openClone_starts stamp source named b).of_ok hopen).aside
    (s₁.pending.insert source clone)
  refine (owned_of_buildFields hsearches hcloner hstarts rfl hbuild).trans ?_
  -- whatever the rest of the clone needs belongs to the owner of the stamp again
  have h := composes_owning ctx.scopeOwner stamp.owner
  have hfields := h.fieldDeclarations (fun d _ => owning_addSymbol (by simp) d) clone stamp.package
  have hfinished := h.finishClone (hcloner stamp) (fun rest => owning_changeType clone (by simp))
    hfields b built _ _ _ hfinish
  have hregistered := h.registerDefinition owning_registerType _ _ _ _ _ _ hregister
  exact (hfinished.trans (.of_clonesNothing (haside u _))).trans
    ((owning_attachInitializer _ _ _ _ hattach).trans hregistered)

end Clones

/-- **Whatever is cloned for fields belongs to the owner of the scope, and everything else to the
owner of the stamp**, at every depth. -/
theorem owning_readonlyWithin (ctx : Context) (fuel : Nat) (stamp : Stamp) (ty : TypeId) :
    Owning ctx.scopeOwner stamp.owner (readonlyWithin ctx fuel stamp ty) := by
  induction fuel generalizing stamp ty with
  | zero => exact (composes_owning _ _).stop rfl
  | succ fuel ih =>
    exact (composes_owning _ _).cloneStep
      (owning_makeClone (fun h => ⟨ctx, fuel, h⟩) ih stamp) (ih stamp) owning_addType
      owning_remember ty

theorem owning_readonlyVariant (ctx : Context) (stamp : Stamp) (ty : TypeId) :
    Owning ctx.scopeOwner stamp.owner (readonlyVariant ctx stamp ty) :=
  fun s => owning_readonlyWithin ctx (cloneDepth s.types.entries.size) stamp ty s

end Synth

end StructuralTypes
