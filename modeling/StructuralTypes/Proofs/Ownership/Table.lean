import StructuralTypes.Proofs.Growth

/-!
# Who owns the symbols of clones

A clone has a symbol, which comes first, and each of its fields has one, which comes when the type
of the field is there. So whatever was cloned for the type of a field has its symbol in between: it
is enclosed. What was cloned for the other members of a structure is not, for these come after all
fields.

Results:
* `Session.Owned.of_clonesNothing`, `Session.Owned.trans`: what is owned after one step and another.
* **`Session.Owned.of_fields`**: what is owned after a structure got its fields.
-/

namespace StructuralTypes

/-- The symbols of the fields of a structure. -/
def Ty.fieldSymbols (ty : Ty) : List SymbolId :=
  (ty.fields?.getD ∅).values.filterMap (·.symbol)

/-- The symbol is that of a type. -/
def SymbolTable.IsType (S : SymbolTable) (y : SymbolId) : Prop :=
  ∃ a, S.find y = .ok a ∧ a.typeLinks?.isSome

/-- The symbol `y` is that of the type `ty`, whose fields have the symbols `xs`; it has an owner. -/
def SymbolTable.StructureSymbol (S : SymbolTable) (T : TypeTable) (y owner : SymbolId) (ty : TypeId)
    (xs : List SymbolId) : Prop :=
  ∃ a e, S.find y = .ok a ∧ a.typeLinks?.isSome ∧ a.owner = some owner ∧ a.ty = some ty ∧
    T.find ty = .ok e ∧ e.ty.fieldSymbols = xs

/-- The symbol `y` stands between that of a type and that of one of its fields. The type is one of
those whose symbols come from the position `n` on. -/
def SymbolTable.Enclosed (S : SymbolTable) (T : TypeTable) (n : Nat) (y : SymbolId) : Prop :=
  ∃ z owner ty xs x, n ≤ z.index ∧ S.StructureSymbol T z owner ty xs ∧ x ∈ xs ∧ z.index < y.index ∧
    y.index < x.index

namespace SymbolTable

variable {S : SymbolTable} {T : TypeTable} {y owner owner' : SymbolId} {ty ty' : TypeId}
  {xs xs' : List SymbolId}

theorem StructureSymbol.isType (h : S.StructureSymbol T y owner ty xs) : S.IsType y := by
  obtain ⟨a, -, ha, hlinks, -⟩ := h
  exact ⟨a, ha, hlinks⟩

theorem StructureSymbol.unique (h : S.StructureSymbol T y owner ty xs)
    (h' : S.StructureSymbol T y owner' ty' xs') : owner' = owner ∧ ty' = ty ∧ xs' = xs := by
  obtain ⟨a, e, ha, -, howner, hty, he, hxs⟩ := h
  obtain ⟨a', e', ha', -, howner', hty', he', hxs'⟩ := h'
  obtain rfl := Except.ok.inj (ha.symm.trans ha')
  obtain rfl := Option.some.inj (hty.symm.trans hty')
  obtain rfl := Except.ok.inj (he.symm.trans he')
  exact ⟨Option.some.inj (howner'.symm.trans howner), rfl, hxs'.symm.trans hxs⟩

theorem IsType.lt_size (h : S.IsType y) : y.index < S.symbols.size := by
  obtain ⟨a, ha, -⟩ := h
  exact (Array.getElem?_eq_some_iff.1 (find_eq_ok_iff.1 ha)).1

theorem StructureSymbol.ty_lt_size (h : S.StructureSymbol T y owner ty xs) :
    ty.index < T.entries.size := by
  obtain ⟨a, e, -, -, -, -, he, -⟩ := h
  exact TypeTable.lt_of_find he

end SymbolTable

namespace Session

variable {inner outer y z owner x : SymbolId} {ty clone : TypeId} {xs : List SymbolId}
  {s s₁ t t' u w : Session}

/-- In `s`, the symbol is that of a type with these fields. -/
def StructureSymbol (s : Session) (y owner : SymbolId) (ty : TypeId) (xs : List SymbolId) : Prop :=
  s.symbols.StructureSymbol s.types y owner ty xs

/-- What stands for types in `s` does so in `t`, and the old symbols that do, did. -/
structure Continues (s t : Session) : Prop where
  /-- What there is to a type is there. -/
  structureSymbol : ∀ y owner ty xs, s.StructureSymbol y owner ty xs →
    t.StructureSymbol y owner ty xs
  /-- No old symbol has become that of a type. -/
  old : ∀ y, y.index < s.symbols.symbols.size → t.symbols.IsType y → s.symbols.IsType y
  /-- Symbols are only added. -/
  symbols_le : s.symbols.symbols.size ≤ t.symbols.symbols.size
  /-- Types are only added. -/
  types_le : s.types.entries.size ≤ t.types.entries.size

/-- Nothing has been cloned between `s` and `t`. -/
structure ClonesNothing (s t : Session) : Prop extends s.Continues t where
  /-- All symbols of types are old. -/
  none : ∀ y, t.symbols.IsType y → y.index < s.symbols.symbols.size

/-- From `s` to `t` structures have been cloned. The symbols of those that are enclosed by others of
them belong to `inner`, and those of all others to `outer`. -/
structure Owned (inner outer : SymbolId) (s t : Session) : Prop extends s.Continues t where
  /-- A clone is a new type, and its fields have symbols. -/
  made : ∀ y, s.symbols.symbols.size ≤ y.index → t.symbols.IsType y → ∃ owner ty xs,
    t.StructureSymbol y owner ty xs ∧ s.types.entries.size ≤ ty.index ∧
      ∀ x ∈ xs, x.index < t.symbols.symbols.size
  /-- Those that are enclosed. -/
  enclosed : ∀ y owner ty xs, s.symbols.symbols.size ≤ y.index → t.StructureSymbol y owner ty xs →
    t.symbols.Enclosed t.types s.symbols.symbols.size y → owner = inner
  /-- The others. -/
  others : ∀ y owner ty xs, s.symbols.symbols.size ≤ y.index → t.StructureSymbol y owner ty xs →
    ¬t.symbols.Enclosed t.types s.symbols.symbols.size y → owner = outer

theorem Continues.trans (h : s.Continues t) (h' : t.Continues u) : s.Continues u where
  structureSymbol y owner ty xs hy := h'.structureSymbol y owner ty xs
    (h.structureSymbol y owner ty xs hy)
  old y hlt hy := h.old y hlt (h'.old y (Nat.lt_of_lt_of_le hlt h.symbols_le) hy)
  symbols_le := Nat.le_trans h.symbols_le h'.symbols_le
  types_le := Nat.le_trans h.types_le h'.types_le

theorem ClonesNothing.refl (s : Session) : s.ClonesNothing s where
  structureSymbol _ _ _ _ h := h
  old _ _ h := h
  symbols_le := Nat.le_refl _
  types_le := Nat.le_refl _
  none _ h := h.lt_size

theorem ClonesNothing.trans (h : s.ClonesNothing t) (h' : t.ClonesNothing u) :
    s.ClonesNothing u where
  toContinues := h.toContinues.trans h'.toContinues
  none y hy := h.none y (h'.old y (h'.none y hy) hy)

namespace Owned

theorem of_clonesNothing (h : s.ClonesNothing t) : Owned inner outer s t where
  toContinues := h.toContinues
  made y hle hy := absurd (h.none y hy) (Nat.not_lt_of_le hle)
  enclosed y _ _ _ hle hy _ := absurd (h.none y hy.isType) (Nat.not_lt_of_le hle)
  others y _ _ _ hle hy _ := absurd (h.none y hy.isType) (Nat.not_lt_of_le hle)

/-- What was made first has the same fields later, and their symbols came first. -/
theorem structureSymbol_first (h : Owned inner outer s t) (h' : t.Continues u)
    (hle : s.symbols.symbols.size ≤ y.index) (hlt : y.index < t.symbols.symbols.size)
    (hy : u.StructureSymbol y owner ty xs) :
    t.StructureSymbol y owner ty xs ∧ ∀ x ∈ xs, x.index < t.symbols.symbols.size := by
  obtain ⟨owner', ty', xs', hstructure, -, hxs⟩ := h.made y hle (h'.old y hlt hy.isType)
  obtain ⟨rfl, rfl, rfl⟩ := hy.unique (h'.structureSymbol _ _ _ _ hstructure)
  exact ⟨hstructure, hxs⟩

/-- What was made first is enclosed later if it was then. -/
theorem enclosed_first_iff (h : Owned inner outer s t) (h' : t.Continues u)
    (hlt : y.index < t.symbols.symbols.size) :
    u.symbols.Enclosed u.types s.symbols.symbols.size y ↔
      t.symbols.Enclosed t.types s.symbols.symbols.size y := by
  constructor
  · rintro ⟨z, owner, ty, xs, x, hle, hz, hx, hzy, hyx⟩
    obtain ⟨hstructure, -⟩ := h.structureSymbol_first h' hle (Nat.lt_trans hzy hlt) hz
    exact ⟨z, owner, ty, xs, x, hle, hstructure, hx, hzy, hyx⟩
  · rintro ⟨z, owner, ty, xs, x, hle, hz, hx, hzy, hyx⟩
    exact ⟨z, owner, ty, xs, x, hle, h'.structureSymbol _ _ _ _ hz, hx, hzy, hyx⟩

/-- What was made later is not enclosed by what was made first. -/
theorem enclosed_later_iff (h : Owned inner outer s t) (h' : t.Continues u)
    (hle : t.symbols.symbols.size ≤ y.index) :
    u.symbols.Enclosed u.types s.symbols.symbols.size y ↔
      u.symbols.Enclosed u.types t.symbols.symbols.size y := by
  constructor
  · rintro ⟨z, owner, ty, xs, x, hz, hstructure, hx, hzy, hyx⟩
    refine ⟨z, owner, ty, xs, x, Nat.not_lt.1 fun hlt => ?_, hstructure, hx, hzy, hyx⟩
    have hlt' := (h.structureSymbol_first h' hz hlt hstructure).2 x hx
    omega
  · rintro ⟨z, owner, ty, xs, x, hz, hrest⟩
    exact ⟨z, owner, ty, xs, x, Nat.le_trans h.symbols_le hz, hrest⟩

/-- **One step after another.** -/
theorem trans (h : Owned inner outer s t) (h' : Owned inner outer t u) :
    Owned inner outer s u where
  toContinues := h.toContinues.trans h'.toContinues
  made y hle hy := by
    by_cases hlt : y.index < t.symbols.symbols.size
    · obtain ⟨owner, ty, xs, hstructure, hnew, hxs⟩ := h.made y hle (h'.old y hlt hy)
      exact ⟨owner, ty, xs, h'.structureSymbol _ _ _ _ hstructure, hnew,
        fun x hx => Nat.lt_of_lt_of_le (hxs x hx) h'.symbols_le⟩
    · obtain ⟨owner, ty, xs, hstructure, hnew, hxs⟩ := h'.made y (Nat.not_lt.1 hlt) hy
      exact ⟨owner, ty, xs, hstructure, Nat.le_trans h.types_le hnew, hxs⟩
  enclosed y owner ty xs hle hy henclosed := by
    by_cases hlt : y.index < t.symbols.symbols.size
    · obtain ⟨hstructure, -⟩ := h.structureSymbol_first h'.toContinues hle hlt hy
      exact h.enclosed y owner ty xs hle hstructure
        ((h.enclosed_first_iff h'.toContinues hlt).1 henclosed)
    · have hge := Nat.not_lt.1 hlt
      exact h'.enclosed y owner ty xs hge hy ((h.enclosed_later_iff h'.toContinues hge).1 henclosed)
  others y owner ty xs hle hy hnot := by
    by_cases hlt : y.index < t.symbols.symbols.size
    · obtain ⟨hstructure, -⟩ := h.structureSymbol_first h'.toContinues hle hlt hy
      exact h.others y owner ty xs hle hstructure
        fun henclosed => hnot ((h.enclosed_first_iff h'.toContinues hlt).2 henclosed)
    · have hge := Nat.not_lt.1 hlt
      exact h'.others y owner ty xs hge hy
        fun henclosed => hnot ((h.enclosed_later_iff h'.toContinues hge).2 henclosed)

/-- **A structure gets its fields.** First comes its symbol `z`, then what its fields need, all of
which belongs to `inner`; then it gets the fields, whose symbols come after what each of them
needs. -/
theorem of_fields (hopen : s.Continues s₁) (hz : z.index = s.symbols.symbols.size)
    (hsize : s₁.symbols.symbols.size = s.symbols.symbols.size + 1)
    (hclone : clone.index = s.types.entries.size) (hclone_lt : clone.index < s₁.types.entries.size)
    (hfields : Owned inner inner s₁ t)
    (hset : ∀ y owner ty ys, ty ≠ clone → t.StructureSymbol y owner ty ys →
      t'.StructureSymbol y owner ty ys)
    (hsymbols : t'.symbols = t.symbols) (htypes : t'.types.entries.size = t.types.entries.size)
    (hstructure : t'.StructureSymbol z outer clone xs)
    (hxs : ∀ x ∈ xs, x.index < t.symbols.symbols.size)
    (hcovers : ∀ y, s₁.symbols.symbols.size ≤ y.index → t.symbols.IsType y →
      ∃ x ∈ xs, y.index < x.index) : Owned inner outer s t' := by
  have hle := hfields.symbols_le
  -- what the fields needed is of other types than the clone
  have hfirst : ∀ y, s₁.symbols.symbols.size ≤ y.index → t'.symbols.IsType y →
      ∃ owner ty ys, t.StructureSymbol y owner ty ys ∧ t'.StructureSymbol y owner ty ys ∧
        s₁.types.entries.size ≤ ty.index ∧ ∀ x ∈ ys, x.index < t.symbols.symbols.size := by
    intro y hy htype
    obtain ⟨owner, ty, ys, hown, hnew, hys⟩ := hfields.made y hy (hsymbols ▸ htype)
    have hne : ty ≠ clone := by
      rintro rfl
      omega
    exact ⟨owner, ty, ys, hown, hset _ _ _ _ hne hown, hnew, hys⟩
  -- two kinds of new symbols
  have hkinds : ∀ y, s.symbols.symbols.size ≤ y.index →
      y = z ∨ s₁.symbols.symbols.size ≤ y.index := by
    intro y hy
    by_cases hyz : y = z
    · exact .inl hyz
    · have hne : y.index ≠ z.index := fun h => hyz (congrArg SymbolId.mk h)
      omega
  refine { structureSymbol := ?_, old := ?_, symbols_le := by rw [hsymbols]; omega, types_le := ?_,
           made := ?_, enclosed := ?_, others := ?_ }
  · intro y owner ty ys hy
    have hlt := hy.ty_lt_size
    have hne : ty ≠ clone := by
      rintro rfl
      omega
    exact hset _ _ _ _ hne (hfields.structureSymbol _ _ _ _ (hopen.structureSymbol _ _ _ _ hy))
  · intro y hlt hy
    exact hopen.old y hlt (hfields.old y (by omega) (hsymbols ▸ hy))
  · rw [htypes]
    exact Nat.le_trans hopen.types_le hfields.types_le
  · intro y hy htype
    rcases hkinds y hy with rfl | hle'
    · exact ⟨outer, clone, xs, hstructure, Nat.le_of_eq hclone.symm, by rwa [hsymbols]⟩
    · obtain ⟨owner, ty, ys, -, hown, hnew, hys⟩ := hfirst y hle' htype
      exact ⟨owner, ty, ys, hown, Nat.le_trans hopen.types_le hnew, by rwa [hsymbols]⟩
  · intro y owner ty ys hy hstructure' henclosed
    rcases hkinds y hy with rfl | hle'
    · -- the symbol of the clone is the first of all
      obtain ⟨z', -, -, -, -, hz', -, -, hzy, -⟩ := henclosed
      omega
    · obtain ⟨_, _, _, ht, hown, -⟩ := hfirst y hle' hstructure'.isType
      obtain ⟨rfl, rfl, rfl⟩ := hown.unique hstructure'
      by_cases hin : t.symbols.Enclosed t.types s₁.symbols.symbols.size y
      · exact hfields.enclosed y _ _ _ hle' ht hin
      · exact hfields.others y _ _ _ hle' ht hin
  · intro y owner ty ys hy hstructure' hnot
    rcases hkinds y hy with rfl | hle'
    · exact (hstructure.unique hstructure').1
    · obtain ⟨x, hx, hlt⟩ := hcovers y hle' (hsymbols ▸ hstructure'.isType)
      exact absurd ⟨z, outer, clone, xs, x, by omega, hstructure, hx, by omega, hlt⟩ hnot

end Owned

end Session

end StructuralTypes
