import Mathlib.Logic.Relation
import StructuralTypes.Proofs.Range.Reading

/-!
# Texts of types are finite

The types on a path are different, so a path cannot be longer than the table, and every type has a
text, however its parts lead back to it. Where no type that is written by its structure leads back
to itself through such types, nothing is ever cut off, and the text is that of the plain recursion
over types.

Results:
* **`cutWithin_eq_plainWithin`**: without circles, nothing is cut off.
* **`agree_cutWithin`**: every bound that is large enough gives the same text.
* **`display_faithful`**: the text of every type, and the path at every type inside.
-/

namespace StructuralTypes

open Relation

/-! ## Two computations with one result -/

/-- Both computations end well, with the same result. -/
def Agree (α : Type) (x y : Except Stop α) : Prop := ∃ a, x = .ok a ∧ y = .ok a

theorem relates_agree : Relates Agree where
  pure a := ⟨a, rfl, rfl⟩
  bind := by
    rintro α β _ _ f g ⟨a, rfl, rfl⟩ hf
    exact hf a

theorem relates_eq {m : Type → Type} [Monad m] : Relates (m := m) fun _ x y => x = y where
  pure _ := rfl
  bind := by
    rintro α β x _ f g rfl hf
    rw [funext hf]

namespace TypeTable

variable {T : TypeTable} {S : SymbolTable} {b : Extent} {ty : TypeId} {path : List TypeId}

/-- The text of a type, going at most `fuel` levels down, by plain recursion over types. -/
def plainWithin (T : TypeTable) (S : SymbolTable) : (fuel : Nat) → TypeId → Except Stop String
  | 0, _ => .error .unending
  | fuel + 1, ty => do
    let entry ← T.find ty
    match ← shownName? S entry with
    | some name => return name
    | none => entry.ty.render (T.plainWithin S fuel)

/-- `ty` is written by its structure, and `part` is a part of it. -/
def Shows (T : TypeTable) (S : SymbolTable) (ty part : TypeId) : Prop :=
  ∃ e, T.find ty = .ok e ∧ shownName? S e = .ok none ∧ part ∈ e.ty.shown

/-- The types that are not on the path. -/
def offPath (T : TypeTable) (path : List TypeId) : List Nat :=
  (List.range T.entries.size).filter fun i => ⟨i⟩ ∉ path

theorem length_offPath_le (T : TypeTable) (path : List TypeId) :
    (T.offPath path).length ≤ T.entries.size := by
  rw [← List.length_range (n := T.entries.size)]
  exact List.length_filter_le _ _

/-- Going down to a type that is not on the path leaves fewer types that are not. -/
theorem length_offPath_cons_lt (hty : ty.index < T.entries.size) (hpath : ty ∉ path) :
    (T.offPath (ty :: path)).length < (T.offPath path).length := by
  have hsub : ty.index :: T.offPath (ty :: path) ⊆ T.offPath path := by
    intro i hi
    unfold offPath at hi ⊢
    rcases List.mem_cons.1 hi with rfl | hi
    · simpa [hty] using hpath
    · simp only [List.mem_filter, List.mem_cons, decide_eq_true_eq, not_or] at hi ⊢
      exact ⟨hi.1, hi.2.2⟩
  have hnodup : (ty.index :: T.offPath (ty :: path)).Nodup := by
    refine List.nodup_cons.2 ⟨?_, List.nodup_range.filter _⟩
    simp [offPath]
  exact hnodup.length_le_of_subset hsub

/-! ## Without circles -/

/-- **Where no type leads back to itself, nothing is cut off**, within whatever depth. The types on
the path lead to the type that is written, so it is none of them. -/
theorem cutWithin_eq_plainWithin
    (hacyclic : ∀ x, ReflTransGen (T.Shows S) ty x → ¬TransGen (T.Shows S) x x)
    (hpath : ∀ x ∈ path, TransGen (T.Shows S) x ty) (fuel : Nat) :
    T.cutWithin S fuel path ty = T.plainWithin S fuel ty := by
  induction fuel generalizing path ty with
  | zero => rfl
  | succ fuel ih =>
    have hmem : ty ∉ path := fun hmem => hacyclic ty .refl (hpath ty hmem)
    unfold cutWithin plainWithin
    cases he : T.find ty with
    | error e => rfl
    | ok e =>
      cases ho : shownName? S e with
      | error e' => simp only [bind, Except.bind, ho]
      | ok o =>
        simp only [bind, Except.bind, ho, if_neg hmem]
        cases o with
        | some name => rfl
        | none =>
          refine relates_eq.render fun x hx => ?_
          have hstep : T.Shows S ty x := ⟨e, he, ho, hx⟩
          refine ih (fun y hy => hacyclic y (.head hstep hy)) ?_
          exact List.forall_mem_cons.2 ⟨.single hstep, fun y hy => (hpath y hy).tail hstep⟩

/-! ## Texts in closed tables -/

/-- The parts of a type that stores only handles in range are in range. -/
theorem index_lt_of_mem_shown {kind : Ty} (h : Within b kind) {x : TypeId} (hx : x ∈ kind.shown) :
    x.index < b.types := by
  have hfields : ∀ {fields : FieldMap}, Within b fields → x ∈ fields.values.map (·.ty) →
      x.index < b.types := by
    intro fields hin hmem
    obtain ⟨f, hf, rfl⟩ := List.mem_map.1 hmem
    exact within_typeId.1 (within_field.1 (within_list.1 hin.values f hf)).1
  cases kind with
  | union members => exact within_typeId.1 (within_list.1 h x hx)
  | record r => exact hfields (within_recordType.1 h).1 hx
  | object fields => exact hfields h hx
  | error detail | map constraint | ref target =>
    obtain rfl := List.mem_singleton.1 hx
    exact within_typeId.1 h
  | invokable params rest returns =>
    obtain ⟨hparams, hrest, hreturns⟩ := within_invokable.1 h
    rcases List.mem_append.1 hx with hx | hx
    · rcases List.mem_append.1 hx with hx | hx
      · exact within_typeId.1 (within_list.1 hparams x hx)
      · exact within_typeId.1 (within_option.1 hrest x (Option.mem_toList.1 hx))
    · obtain rfl := List.mem_singleton.1 hx
      exact within_typeId.1 hreturns
  | _ => cases hx

section Closed

variable (hT : Within b T.entries) (ht : b.types ≤ T.entries.size)
  (hS : b.symbols ≤ S.symbols.size)
include hT ht hS

/-- It is known of every type how it is written, and all its parts are there. -/
theorem exists_shownName? (hty : ty.index < T.entries.size) :
    ∃ e o, T.find ty = .ok e ∧ shownName? S e = .ok o ∧
      ∀ x ∈ e.ty.shown, x.index < T.entries.size := by
  have hget := Array.getElem?_eq_getElem hty
  obtain ⟨hkind, hsymbol⟩ := within_typeEntry.1 (hT.getElem? hget)
  obtain ⟨o, ho⟩ : ∃ o, shownName? S T.entries[ty.index] = .ok o := by
    unfold shownName?
    cases hs : T.entries[ty.index].symbol with
    | none => exact ⟨none, rfl⟩
    | some y =>
      have hy : y.index < b.symbols := within_symbolId.1 (within_some.1 (hs ▸ hsymbol))
      have hfind := SymbolTable.find_eq_ok_iff.2
        (Array.getElem?_eq_getElem (Nat.lt_of_lt_of_le hy hS))
      dsimp only
      rw [hfind]
      exact ⟨_, rfl⟩
  exact ⟨_, o, find_eq_ok_iff.2 hget, ho, fun x hx =>
    Nat.lt_of_lt_of_le (index_lt_of_mem_shown hkind hx) ht⟩

/-- **Every bound that is large enough gives the same text.** What is large enough is the number of
types that are not on the path. -/
theorem agree_cutWithin {fuel fuel' : Nat} (hty : ty.index < T.entries.size)
    (hfuel : (T.offPath path).length < fuel) (hfuel' : (T.offPath path).length < fuel') :
    Agree String (T.cutWithin S fuel path ty) (T.cutWithin S fuel' path ty) := by
  induction fuel generalizing fuel' path ty with
  | zero => exact absurd hfuel (Nat.not_lt_zero _)
  | succ fuel ih =>
    obtain ⟨fuel', rfl⟩ : ∃ k, fuel' = k + 1 := ⟨fuel' - 1, by omega⟩
    obtain ⟨e, o, he, ho, hshown⟩ := exists_shownName? hT ht hS hty
    simp only [cutWithin, he, ho, bind, Except.bind]
    cases o with
    | some name => exact ⟨name, rfl, rfl⟩
    | none =>
      by_cases hmem : ty ∈ path
      · simp only [if_pos hmem]
        exact ⟨_, rfl, rfl⟩
      · simp only [if_neg hmem]
        have hlt := length_offPath_cons_lt hty hmem
        exact relates_agree.render fun x hx => ih (hshown x hx) (by omega) (by omega)

/-- **Every type has a text, in which what is written by its structure is cut off exactly where it
is on its own path.** It is found within a bounded depth, and at every type inside, the list of the
types above is left as it was. If going down from type to type, through structures only, meets no
type that leads back to itself in this way, then the text is that of the plain recursion. -/
theorem display_faithful (hty : ty.index < T.entries.size) :
    (∃ text, T.display S ty = .ok text ∧ ∀ fuel, T.entries.size < fuel →
      (T.displayWithin S fuel ty).run [] = .ok (text, []) ∧ T.cutWithin S fuel [] ty = .ok text) ∧
    (∀ fuel visiting x text visiting',
      (T.displayWithin S fuel x).run visiting = .ok (text, visiting') →
        visiting' = visiting ∧ T.cutWithin S fuel visiting x = .ok text) ∧
    ((∀ x, ReflTransGen (T.Shows S) ty x → ¬TransGen (T.Shows S) x x) →
      ∀ fuel, T.entries.size < fuel → T.plainWithin S fuel ty = T.display S ty) := by
  have hdeep : ∀ {fuel}, T.entries.size < fuel → (T.offPath []).length < fuel :=
    Nat.lt_of_le_of_lt (length_offPath_le T [])
  have hbound := hdeep (Nat.lt_succ_self T.entries.size)
  refine ⟨?_, fun fuel visiting x text visiting' hrun => ?_, fun hacyclic fuel hfuel => ?_⟩
  · obtain ⟨text, htext, -⟩ := agree_cutWithin hT ht hS hty hbound hbound
    refine ⟨text, (display_eq_cutWithin ty).trans htext, fun fuel hfuel => ?_⟩
    obtain ⟨text', htext', hcut⟩ := agree_cutWithin hT ht hS hty hbound (hdeep hfuel)
    obtain rfl := Except.ok.inj (htext.symm.trans htext')
    refine ⟨(displayWithin_restores fuel [] ty).trans ?_, hcut⟩
    rw [hcut]
    rfl
  · have hrestores := (displayWithin_restores fuel visiting x).symm.trans hrun
    cases hcut : T.cutWithin S fuel visiting x with
    | error e =>
      rw [hcut] at hrestores
      cases hrestores
    | ok text' =>
      rw [hcut] at hrestores
      obtain ⟨rfl, rfl⟩ := Prod.mk.inj (Except.ok.inj hrestores)
      exact ⟨rfl, rfl⟩
  · obtain ⟨text, htext, hcut⟩ := agree_cutWithin hT ht hS hty hbound (hdeep hfuel)
    rw [← cutWithin_eq_plainWithin hacyclic (List.forall_mem_nil _) fuel, hcut, ← htext,
      display_eq_cutWithin]

end Closed

/-- Two records that lead to themselves, one through a union and one, which has a name, directly,
and a map of the latter. -/
def ringed : TypeTable :=
  let next (ty : TypeId) : FieldMap := .ofList [("next", { name := "next", ty })]
  ⟨initial.entries ++ #[
    { ty := .record { fields := next ⟨15⟩ } }, { ty := .union [Builtin.int, ⟨14⟩] },
    { ty := .record { fields := next ⟨16⟩ }, symbol := some ⟨0⟩ }, { ty := .map ⟨16⟩ }]⟩

/-- The name of the second record. -/
def ringedNames : SymbolTable where
  symbols := #[
    { name := "R", package := ⟨0⟩, span := {}, ty := some ⟨16⟩, id := ⟨0⟩, kind := .type {} }]

/-- The record without a name is cut off, and the map is written as by the plain recursion. -/
theorem ringed_display :
    ringed.display ringedNames ⟨14⟩ = .ok "record { next: int|...; }" ∧
      (∃ text, ringed.display ringedNames ⟨14⟩ = .ok text ∧ ∀ fuel, 18 < fuel →
        (ringed.displayWithin ringedNames fuel ⟨14⟩).run [] = .ok (text, []) ∧
          ringed.cutWithin ringedNames fuel [] ⟨14⟩ = .ok text) ∧
      ∀ fuel, 18 < fuel →
        ringed.plainWithin ringedNames fuel ⟨17⟩ = ringed.display ringedNames ⟨17⟩ := by
  have hin : Within ⟨1, 0, 18⟩ ringed.entries := by decide +kernel
  have hmap : ∀ x, ringed.Shows ringedNames ⟨17⟩ x → x = ⟨16⟩ := by
    rintro x ⟨e, he, -, hx⟩
    obtain rfl := Except.ok.inj he
    exact List.mem_singleton.1 hx
  have hnamed : ∀ x, ¬ringed.Shows ringedNames ⟨16⟩ x := by
    rintro x ⟨e, he, ho, -⟩
    obtain rfl := Except.ok.inj he
    cases ho
  have hacyclic : ∀ x, ReflTransGen (ringed.Shows ringedNames) ⟨17⟩ x →
      ¬TransGen (ringed.Shows ringedNames) x x := by
    intro x hx hcircle
    obtain ⟨y, hstep, hrest⟩ := TransGen.head'_iff.1 hcircle
    rcases hx.cases_head with rfl | ⟨z, hz, hx⟩
    · obtain rfl := hmap y hstep
      rcases hrest.cases_head with h | ⟨z, hz, -⟩
      · cases h
      · exact hnamed z hz
    · obtain rfl := hmap z hz
      rcases hx.cases_head with rfl | ⟨z, hz, -⟩
      · exact hnamed y hstep
      · exact hnamed z hz
  exact ⟨by rfl, (display_faithful hin (by decide) (by decide) (by decide)).1,
    (display_faithful hin (by decide) (by decide) (by decide)).2.2 hacyclic⟩

end TypeTable

end StructuralTypes
