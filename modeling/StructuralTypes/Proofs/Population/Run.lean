import Mathlib.Data.List.Forall2
import StructuralTypes.Proofs.Population.Field
import StructuralTypes.Proofs.Readonly.Stability

/-!
# Field after field

Nothing happens while fields are built but what the cloner does, and each field adds one symbol and
one name. So all that was there stays as it was, `Preserves`, except that the scope of the structure
that gets the fields has more and more names. What the fields are in the end, `Placed` says: their
symbols are new, each is owned by that structure's symbol, and the scope has the old names followed
by those of the fields.

Results:
* `Builds.preserves`, `BuildsAll.preserves`: what was there is there.
* **`BuildsAll.placed`**: each field has a new symbol, bound in its turn.
* **`BuildsAll.built`**: each field is what its type made of it, and stays so.
-/

namespace StructuralTypes

/-! ## What stays -/

/-- All symbols, types and variants of `s` are in `t`, and as `s` has them; nothing has become known
but what was open. -/
structure Session.Preserves (s t : Session) : Prop where
  /-- Symbols are only added. -/
  symbols : Grows s.symbols.symbols t.symbols.symbols
  /-- Types are only added. -/
  types : s.types.Grows t.types
  /-- None of them leads on. -/
  same : s.types.SameWritable t.types
  /-- The package imports the same. -/
  imports : t.package.imports = s.package.imports
  /-- The same clones are pending. -/
  pending : t.pending = s.pending
  /-- What is remembered stays remembered. -/
  memo : ∀ ty v, s.memo.get? ty = some v → t.memo.get? ty = some v
  /-- Only what was open has become known. -/
  learns : s.LearnsOpen t

/-- What the cloner gives, a search of some depth gives. -/
def Cloner.Searches (cl : Cloner) : Prop :=
  ∀ {s ty v t}, cl.Gives s ty v t → ∃ ctx n, Cloner.Gives (Synth.readonlyWithin ctx n) s ty v t

namespace Session.Preserves

variable {s t u : Session}

theorem refl (s : Session) : s.Preserves s where
  symbols := .refl _
  types := StructuralTypes.Grows.refl _
  same := .refl _
  imports := rfl
  pending := rfl
  memo _ _ h := h
  learns := .refl s

/-- What is known stays known. -/
theorem known (h : s.Preserves t) {k v : TypeId} (hk : s.known? k = some v) :
    t.known? k = some v := by
  rw [known?_eq_some_iff] at hk ⊢
  rw [h.pending]
  exact hk.imp_right fun ⟨hp, hm⟩ => ⟨hp, h.memo k v hm⟩

theorem knows (h : s.Preserves t) : s.Knows t := by
  refine ⟨h.same, fun ty ht => ?_⟩
  by_contra hs
  obtain ⟨v, hv⟩ := Option.ne_none_iff_exists'.1 hs
  simp [h.known hv] at ht

theorem trans (h : s.Preserves t) (h' : t.Preserves u) : s.Preserves u where
  symbols := h.symbols.trans h'.symbols
  types := StructuralTypes.Grows.trans h.types h'.types
  same := h.same.trans h'.same
  imports := h'.imports.trans h.imports
  pending := h'.pending.trans h.pending
  memo ty v hv := h'.memo ty v (h.memo ty v hv)
  learns := h.learns.trans h.knows h'.learns

theorem find_symbol (h : s.Preserves t) {x : SymbolId} {named : Symbol}
    (hf : s.symbols.find x = .ok named) : t.symbols.find x = .ok named :=
  SymbolTable.find_mono h.symbols hf

end Session.Preserves

theorem Session.Preserves.of_gives {ctx : Context} {n : Nat} {s t : Session} {ty v : TypeId}
    (h : Cloner.Gives (Synth.readonlyWithin ctx n) s ty v t) : s.Preserves t := by
  have hf := (Synth.readonlyWithin_keeps ctx n).gives h
  exact
    { symbols := hf.keeps.symbols
      types := hf.keeps.types
      same := hf.same
      imports := by rw [hf.keeps.package]
      pending := hf.pending
      memo := hf.keeps.memo
      learns := Synth.leads_learnsOpen ctx n (.inl ⟨v, h⟩) }

/-! ## One field -/

section Built

variable {ctx : Context} {cloner : Option Cloner} {plan : FieldPlan} {f f' : Field}
  {s t u : Session} {v ty : TypeId} {m : OrderedMap String SymbolId}

/-- The type of a field is that of the template, or a search gave it. -/
theorem Synth.fieldType_cases (hcl : ∀ cl ∈ cloner, cl.Searches)
    (h : fieldType ctx cloner plan ty s = .ok v u) :
    (plan.immutable = false ∧ v = ty ∧ u = s) ∨
      (plan.immutable = true ∧ ∃ ctx n, Cloner.Gives (readonlyWithin ctx n) s ty v u) := by
  unfold fieldType at h
  split at h
  · rename_i hreadonly
    split at h
    · rename_i cl
      exact .inr ⟨hreadonly, hcl cl rfl ⟨_, h⟩⟩
    · cases h
  · rename_i hplain
    cases h
    exact .inl ⟨Bool.not_eq_true _ ▸ hplain, rfl, rfl⟩

/-- The cloner adds symbols and types and opens scopes; without one the session stays as it is. -/
theorem Synth.preserves_of_fieldType (hcl : ∀ cl ∈ cloner, cl.Searches)
    (h : fieldType ctx cloner plan ty s = .ok v u) :
    s.Preserves u ∧ Grows s.symbols.scopes u.symbols.scopes := by
  rcases fieldType_cases hcl h with ⟨-, -, rfl⟩ | ⟨-, ctx', n, hgives⟩
  · exact ⟨.refl u, .refl _⟩
  · exact ⟨.of_gives hgives, ((readonlyWithin_keeps ctx' n).gives hgives).keeps.scopes⟩

/-- Without a wish for readonly fields, the types of the templates are taken over. -/
theorem Synth.fieldType_eq_ok_iff_of_plain (hplain : plan.immutable = false) :
    fieldType ctx cloner plan ty s = .ok v u ↔ v = ty ∧ u = s := by
  unfold fieldType
  rw [hplain, if_neg Bool.false_ne_true]
  constructor
  · intro h
    cases h
    exact ⟨rfl, rfl⟩
  · rintro ⟨rfl, rfl⟩
    rfl

/-- The field `f'` was made of the template `f` and the type `v`, as the tables `S` and `T` told.
Its symbol is not in `S`, but in `S'`. -/
inductive BuiltField (S : SymbolTable) (T : TypeTable) (S' : SymbolTable) (plan : FieldPlan)
    (f : Field) (v : TypeId) : Field → Prop
  | intro {k : SymbolKind} {d : Declaration} {ty : TypeId} {x : SymbolId}
      (declares : Declares S T plan f v k d) (typed : d.ty = some ty)
      (new : S.symbols.size ≤ x.index)
      (found : S'.find x = .ok { d with id := x, kind := k }) :
      BuiltField S T S' plan f v
        { name := f.name, writtenName := d.writtenName, ty, symbol := some x, span := f.span }

theorem BuiltField.grows {S S' S'' : SymbolTable} {T : TypeTable}
    (hS : Grows S'.symbols S''.symbols) (h : BuiltField S T S' plan f v f') :
    BuiltField S T S'' plan f v f' := by
  obtain ⟨declares, typed, new, found⟩ := h
  exact ⟨declares, typed, new, SymbolTable.find_mono hS found⟩

/-- A field is made of the type that was given for it, and its symbol is added and bound. -/
theorem Synth.Builds.builtField (h : Builds ctx cloner plan f s f' t) : ∃ v u,
    fieldType ctx cloner plan f.ty s = .ok v u ∧ u.Preserves t ∧
      BuiltField u.symbols u.types t.symbols plan f v f' := by
  obtain @⟨v, ty, u, k, d, symbols, type, declares, typed, binds⟩ := h
  obtain ⟨-, -, -, -, hsymbols⟩ := SymbolTable.bindings?_defineIn binds
  refine ⟨v, u, type, { Session.Preserves.refl u with symbols := ?_ }, declares, typed,
    Nat.le_refl _, ?_⟩
  · rw [hsymbols]
    exact u.symbols.grows_add k d
  · have hfind := SymbolTable.find_add_self u.symbols k d
    rw [SymbolTable.find_eq_ok_iff] at hfind ⊢
    rw [hsymbols]
    exact hfind

/-- What was there is there when a field is built. -/
theorem Synth.Builds.preserves (hcl : ∀ cl ∈ cloner, cl.Searches)
    (h : Builds ctx cloner plan f s f' t) : s.Preserves t := by
  obtain ⟨v, u, type, hu, -⟩ := h.builtField
  exact (preserves_of_fieldType hcl type).1.trans hu

/-- **The symbol of a field is new, has the right owner, and is bound under the field's name**,
which was new. -/
theorem Synth.Builds.bound (hcl : ∀ cl ∈ cloner, cl.Searches) (h : Builds ctx cloner plan f s f' t)
    (hm : s.symbols.bindings? plan.holder = some m) : ∃ x named, f'.symbol = some x ∧
      s.symbols.symbols.size ≤ x.index ∧ t.symbols.find x = .ok named ∧
        named.owner = some plan.holder ∧ f.name ∉ m.keys ∧
          t.symbols.bindings? plan.holder = some (m.insert f.name x) := by
  obtain @⟨v, ty, u, k, d, symbols, type, declares, typed, binds⟩ := h
  obtain ⟨m', hm', hnew, hbound, hsymbols⟩ := SymbolTable.bindings?_defineIn binds
  obtain ⟨hu, hscopes⟩ := preserves_of_fieldType hcl type
  have hgrows : Grows s.symbols.symbols (u.symbols.add k d).2.symbols :=
    hu.symbols.trans (u.symbols.grows_add k d)
  have hold := SymbolTable.bindings?_grows hgrows hscopes hm
  obtain rfl := Option.some.inj (hold.symm.trans hm')
  refine ⟨_, { d with id := ⟨u.symbols.symbols.size⟩, kind := k }, rfl, hu.symbols.size_le, ?_,
    declares.owner, hnew, hbound⟩
  have hfind := SymbolTable.find_add_self u.symbols k d
  rw [SymbolTable.find_eq_ok_iff] at hfind ⊢
  rw [hsymbols]
  exact hfind

end Built

/-! ## All fields -/

/-- Fields were built after the templates `fs`, whose symbols `xs` were added between the tables `S`
and `S'` and bound in the scope of `holder`. -/
structure Placed (holder : SymbolId) (S S' : SymbolTable) (fs fields : List Field)
    (xs : List SymbolId) : Prop where
  /-- The fields have the names of the templates. -/
  names : fields.map (·.name) = fs.map (·.name)
  /-- Each has its symbol. -/
  symbols : fields.map (·.symbol) = xs.map some
  /-- The symbols are new. -/
  fresh : ∀ x ∈ xs, S.symbols.size ≤ x.index
  /-- No two fields share one. -/
  distinct : xs.Nodup
  /-- The symbol of the structure owns them. -/
  owned : ∀ x ∈ xs, ∃ named, S'.find x = .ok named ∧ named.owner = some holder
  /-- Without a scope for their names there are none. -/
  scope : fs ≠ [] → ∃ m, S.bindings? holder = some m
  /-- Their names come after those that were there. -/
  bound : ∀ m, S.bindings? holder = some m → ∃ m', S'.bindings? holder = some m' ∧
    m'.entries = m.entries ++ (fs.map (·.name)).zip xs

namespace Synth.BuildsAll

variable {ctx : Context} {cloner : Option Cloner} {plan : FieldPlan} {fs fields : List Field}
  {s t : Session} {m : OrderedMap String SymbolId}

theorem preserves (hcl : ∀ cl ∈ cloner, cl.Searches) (h : BuildsAll ctx cloner plan fs s fields t) :
    s.Preserves t := by
  induction h with
  | nil => exact .refl _
  | cons first _ ih => exact (first.preserves hcl).trans ih

/-- **Each field gets a new symbol, which is bound in its turn.** -/
theorem placed (hcl : ∀ cl ∈ cloner, cl.Searches) (h : BuildsAll ctx cloner plan fs s fields t)
    (hm : fs ≠ [] → ∃ m, s.symbols.bindings? plan.holder = some m) :
    ∃ xs, Placed plan.holder s.symbols t.symbols fs fields xs := by
  induction h with
  | nil => exact ⟨[], rfl, rfl, by simp, .nil, by simp, hm, fun m hm => ⟨m, hm, by simp⟩⟩
  | @cons f f' fs fields s t u first rest ih =>
    have hscoped := hm
    obtain ⟨m, hm⟩ := hm (List.cons_ne_nil _ _)
    obtain ⟨x, named, hsymbol, hfresh, hfind, howner, hnew, hbound⟩ := first.bound hcl hm
    obtain ⟨xs, hxs⟩ := ih fun _ => ⟨_, hbound⟩
    have hx := (Array.getElem?_eq_some_iff.1 (SymbolTable.find_eq_ok_iff.1 hfind)).1
    have hrest := rest.preserves hcl
    refine ⟨x :: xs, ?_, ?_, ?_, ?_, ?_, hscoped, fun m₀ hm₀ => ?_⟩
    · rw [List.map_cons, List.map_cons, hxs.names]
      obtain ⟨-, -, -, -⟩ := first
      rfl
    · rw [List.map_cons, List.map_cons, hxs.symbols, hsymbol]
    · intro y hy
      rcases List.mem_cons.1 hy with rfl | hy
      · exact hfresh
      · exact Nat.le_trans (first.preserves hcl).symbols.size_le (hxs.fresh y hy)
    · refine List.nodup_cons.2 ⟨fun hmem => ?_, hxs.distinct⟩
      exact absurd (hxs.fresh x hmem) (Nat.not_le_of_lt hx)
    · intro y hy
      rcases List.mem_cons.1 hy with rfl | hy
      · exact ⟨named, hrest.find_symbol hfind, howner⟩
      · exact hxs.owned y hy
    · obtain rfl := Option.some.inj (hm.symm.trans hm₀)
      obtain ⟨m', hm', hentries⟩ := hxs.bound _ hbound
      refine ⟨m', hm', ?_⟩
      rw [hentries, OrderedMap.entries_insert_of_not_mem hnew, List.append_assoc]
      rfl

/-- The names of the fields were new, and are all different. -/
theorem names_new (hcl : ∀ cl ∈ cloner, cl.Searches) (h : BuildsAll ctx cloner plan fs s fields t)
    (hm : s.symbols.bindings? plan.holder = some m) :
    (∀ f ∈ fs, f.name ∉ m.keys) ∧ (fs.map (·.name)).Nodup := by
  obtain ⟨xs, hxs⟩ := h.placed hcl fun _ => ⟨m, hm⟩
  obtain ⟨m', -, hentries⟩ := hxs.bound m hm
  have hlength : (fs.map (·.name)).length ≤ xs.length := by
    have hnames := congrArg List.length hxs.names
    have hsymbols := congrArg List.length hxs.symbols
    simp only [List.length_map] at hnames hsymbols ⊢
    omega
  have hkeys : m'.keys = m.keys ++ fs.map (·.name) := by
    unfold OrderedMap.keys
    rw [hentries, List.map_append, List.map_fst_zip hlength]
  have hnodup := m'.keys_nodup
  rw [hkeys, List.nodup_append] at hnodup
  refine ⟨fun f hf hmem => ?_, hnodup.2.1⟩
  exact hnodup.2.2 f.name hmem f.name (List.mem_map.2 ⟨f, hf, rfl⟩) rfl

/-- No two fields have one name. -/
theorem names_nodup (hcl : ∀ cl ∈ cloner, cl.Searches) (h : BuildsAll ctx cloner plan fs s fields t)
    (hm : fs ≠ [] → ∃ m, s.symbols.bindings? plan.holder = some m) :
    (fs.map (·.name)).Nodup := by
  cases fs with
  | nil => exact .nil
  | cons f fs =>
    obtain ⟨m, hm⟩ := hm (List.cons_ne_nil _ _)
    exact (h.names_new hcl hm).2

/-- **Each field is what its type made of it**, in the session in which the cloner had given that
type. Whatever building a field keeps, held when the cloner was called. -/
theorem builtFields {P : Session → Prop} (hcl : ∀ cl ∈ cloner, cl.Searches)
    (h : BuildsAll ctx cloner plan fs s fields t) (hs : P s)
    (step : ∀ f ∈ fs, ∀ f' s' t', P s' → Builds ctx cloner plan f s' f' t' → P t') :
    P t ∧ List.Forall₂ (fun f f' => ∃ s' v u, P s' ∧ s.Preserves s' ∧
      fieldType ctx cloner plan f.ty s' = .ok v u ∧ u.Preserves t ∧
        BuiltField u.symbols u.types t.symbols plan f v f') fs fields := by
  induction h with
  | nil => exact ⟨hs, .nil⟩
  | cons first rest ih =>
    obtain ⟨v, u, type, hu, hbuilt⟩ := first.builtField
    have hrest := rest.preserves hcl
    obtain ⟨ht, hall⟩ := ih (step _ List.mem_cons_self _ _ _ hs first)
      fun f hf => step f (List.mem_cons_of_mem _ hf)
    refine ⟨ht, .cons ⟨_, v, u, hs, .refl _, type, hu.trans hrest, hbuilt.grows hrest.symbols⟩ ?_⟩
    refine hall.imp fun f f' ⟨s', v, u, hP, hs', h⟩ => ⟨s', v, u, hP, ?_, h⟩
    exact (first.preserves hcl).trans hs'

end Synth.BuildsAll

end StructuralTypes
