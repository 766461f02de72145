import StructuralTypes.Ty.Display

/-!
# The types above a type

Writing a type down works on one list of types: those whose structure is being written. A level adds
its type and takes it off again, so every level finds the list as the levels above left it, and the
list is the path from the root. `TypeTable.cutWithin` writes types down with the path handed from
level to level, and never has to take anything back.

`Ty.render` only puts texts together, so it treats related ways to write the types below alike,
whatever the relation, if only it is kept by sequencing.

Results:
* `Relates.render`: one level, for related ways to write the types below.
* **`displayWithin_restores`**: every level leaves the list as it found it, and writes what
  `cutWithin` writes.
-/

namespace StructuralTypes

/-! ## Related computations -/

section Relates

variable {m n : Type → Type} [Monad m] [Monad n] {R : (α : Type) → m α → n α → Prop}

/-- The relation holds between equal results, and is kept by sequencing. -/
structure Relates (R : (α : Type) → m α → n α → Prop) : Prop where
  /-- A result is related to itself. -/
  pure {α : Type} (a : α) : R α (pure a) (pure a)
  /-- Related steps, each followed by related steps, are related. -/
  bind {α β : Type} {x : m α} {y : n α} {f : α → m β} {g : α → n β} :
    R α x y → (∀ a, R β (f a) (g a)) → R β (x >>= f) (y >>= g)

namespace Relates

variable (hR : Relates R)
include hR

theorem mapM {ι α : Type} [LawfulMonad m] [LawfulMonad n] {f : ι → m α} {g : ι → n α} {l : List ι}
    (h : ∀ i ∈ l, R α (f i) (g i)) : R (List α) (l.mapM f) (l.mapM g) := by
  induction l with
  | nil => exact hR.pure []
  | cons i l ih =>
    obtain ⟨hi, hl⟩ := List.forall_mem_cons.1 h
    rw [List.mapM_cons, List.mapM_cons]
    exact hR.bind hi fun a => hR.bind (ih hl) fun as => hR.pure (a :: as)

end Relates

end Relates

/-- The types that are written as parts of a type's structure, from left to right. -/
def Ty.shown : Ty → List TypeId
  | .union members => members
  | .record r => r.fields.values.map (·.ty)
  | .object fields => fields.values.map (·.ty)
  | .error detail => [detail]
  | .map constraint => [constraint]
  | .invokable params rest returns => params ++ rest.toList ++ [returns]
  | .ref target => [target]
  | _ => []

namespace Relates

variable {m n : Type → Type} [Monad m] [Monad n] [LawfulMonad m] [LawfulMonad n]
  {R : (α : Type) → m α → n α → Prop} (hR : Relates R) {text : TypeId → m String}
  {text' : TypeId → n String}
include hR

theorem renderFields {fields : FieldMap}
    (h : ∀ f ∈ fields.values, R String (text f.ty) (text' f.ty)) :
    R String (Ty.renderFields text fields) (Ty.renderFields text' fields) :=
  hR.bind (hR.mapM fun f hf => hR.bind (h f hf) fun _ => hR.pure _) fun _ => hR.pure _

/-- **Related ways to write the parts of a type give related ways to write its structure.** -/
theorem render {ty : Ty} (h : ∀ x ∈ ty.shown, R String (text x) (text' x)) :
    R String (ty.render text) (ty.render text') := by
  cases ty with
  | union members => exact hR.bind (hR.mapM h) fun _ => hR.pure _
  | record r =>
    refine hR.bind (hR.renderFields (List.forall_mem_map.1 h)) fun fields => ?_
    split <;> exact hR.pure _
  | object fields => exact hR.bind (hR.renderFields (List.forall_mem_map.1 h)) fun _ => hR.pure _
  | error detail => exact hR.bind (h detail (List.mem_singleton_self _)) fun _ => hR.pure _
  | map constraint => exact hR.bind (h constraint (List.mem_singleton_self _)) fun _ => hR.pure _
  | invokable params rest returns =>
    obtain ⟨⟨hparams, hrest⟩, hreturns⟩ :
        ((∀ x ∈ params, R String (text x) (text' x)) ∧
          ∀ x ∈ rest.toList, R String (text x) (text' x)) ∧
            ∀ x ∈ [returns], R String (text x) (text' x) := by
      rw [← List.forall_mem_append, ← List.forall_mem_append]
      exact h
    refine hR.bind (hR.mapM hparams) fun _ => ?_
    refine hR.bind (hR.mapM fun x hx => hR.bind (hrest x hx) fun _ => hR.pure _) fun _ => ?_
    exact hR.bind (hreturns returns (List.mem_singleton_self _)) fun _ => hR.pure _
  | ref target => exact h target (List.mem_singleton_self _)
  | _ => exact hR.pure _

end Relates

/-! ## The path as an argument -/

/-- Started with `v`, the computation gives the result of the other one, and ends with `v`. -/
def Restores {σ : Type} (v : σ) (α : Type) (x : StateT σ (Except Stop) α) (y : Except Stop α) :
    Prop :=
  x.run v = (·, v) <$> y

theorem relates_restores {σ : Type} (v : σ) : Relates (Restores v) where
  pure a := rfl
  bind {α β x y f g} hx hf := by
    unfold Restores at *
    rw [StateT.run_bind, hx]
    cases y with
    | error e => rfl
    | ok a => exact hf a

theorem restores_lift {σ α : Type} (v : σ) (x : Except Stop α) :
    Restores v α (liftM x) x := by
  cases x <;> rfl

namespace TypeTable

variable {T : TypeTable} {S : SymbolTable}

/-- The text of a type inside the structures of `path`, going at most `fuel` levels down. A type
that is written by its structure is cut off exactly where it is on the path. -/
def cutWithin (T : TypeTable) (S : SymbolTable) :
    (fuel : Nat) → (path : List TypeId) → TypeId → Except Stop String
  | 0, _, _ => .error .unending
  | fuel + 1, path, ty => do
    let entry ← T.find ty
    match ← shownName? S entry with
    | some name => return name
    | none =>
      if ty ∈ path then return "..."
      else entry.ty.render (T.cutWithin S fuel (ty :: path))

/-- **Every level leaves the list of types as it found it, and writes what the list, as a path,
calls for.** -/
theorem displayWithin_restores (fuel : Nat) (visiting : List TypeId) (ty : TypeId) :
    Restores visiting String (T.displayWithin S fuel ty) (T.cutWithin S fuel visiting ty) := by
  induction fuel generalizing visiting ty with
  | zero => rfl
  | succ fuel ih =>
    have hR := relates_restores visiting
    refine hR.bind (restores_lift _ _) fun e => hR.bind (restores_lift _ _) fun o => ?_
    cases o with
    | some name => exact hR.pure name
    | none =>
      have hlevel : Restores (ty :: visiting) String (e.ty.render (T.displayWithin S fuel))
          (e.ty.render (T.cutWithin S fuel (ty :: visiting))) :=
        (relates_restores _).render fun x _ => ih _ x
      unfold Restores at hlevel ⊢
      by_cases hmem : ty ∈ visiting
      · simp [hmem]
      · -- the type is added before the parts are written, and is first on the list when they are
        simp only [StateT.run_bind, StateT.run_get, pure_bind, hmem, if_false, StateT.run_modify,
          hlevel, bind_map_left]
        rw [map_eq_pure_bind]
        rfl

/-- The text of a type is what is written with nothing above it. -/
theorem display_eq_cutWithin (ty : TypeId) :
    T.display S ty = T.cutWithin S (T.entries.size + 1) [] ty := by
  have hrun : (T.displayWithin S (T.entries.size + 1) ty).run [] = _ :=
    displayWithin_restores _ [] ty
  rw [display, StateT.run'_eq, hrun, Functor.map_map]
  exact id_map _

end TypeTable

end StructuralTypes
