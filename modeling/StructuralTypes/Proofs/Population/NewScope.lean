import StructuralTypes.Proofs.Population.Failure
import StructuralTypes.Proofs.Population.Plain

/-!
# Fields in the newest scope

A structure whose symbol has just got a scope of its own has its fields built in the newest scope
there is. Plain fields then add symbols, and names to that scope, and do nothing else, however the
building ends. In closed tables it ends well unless two of them have one name: whatever else a field
is made of can be read.

Results:
* **`ends_buildAll_newest`**: nothing changes but the newest scope.
* **`buildAll_or_taken`**: plain fields are built unless a name is taken.
* `BuildsAll.symbols_of_plain`: their symbols are added one after the other.
* `BuildsAll.entries_of_newest`: their names are all that is in the scope.
-/

namespace StructuralTypes

/-- Since the session `s`, symbols were added, and the names `m` are in the scope of `y`, which is
the newest one, after `scopes`. Nothing else was done. -/
structure Session.FillsNewest (scopes : Array Scope) (y : SymbolId) (s : Session)
    (m : OrderedMap String SymbolId) (t : Session) : Prop where
  /-- Only symbols and scopes are touched. -/
  aside : t = { s with symbols := t.symbols }
  /-- Symbols are added. -/
  symbols : Grows s.symbols.symbols t.symbols.symbols
  /-- The newest scope has these names. -/
  newest : t.symbols.scopes =
    scopes.push { id := ⟨scopes.size⟩, owner := y, bindings := m }

/-- So many symbols, the first of which is the one with this number. -/
def symbolsFrom (first count : Nat) : List SymbolId := (List.range count).map fun i => ⟨first + i⟩

namespace Session.FillsNewest

variable {scopes : Array Scope} {y : SymbolId} {s t : Session} {m : OrderedMap String SymbolId}
  {named : Symbol}

/-- No symbol is changed. -/
theorem find_symbol (h : s.FillsNewest scopes y m t) {x : SymbolId} {a : Symbol}
    (hx : s.symbols.find x = .ok a) : t.symbols.find x = .ok a :=
  SymbolTable.find_mono h.symbols hx

variable (hfind : s.symbols.find y = .ok named) (hscope : named.scope = some ⟨scopes.size⟩)
include hfind hscope

/-- The names are those in the scope of the structure's symbol. -/
theorem bindings? (h : s.FillsNewest scopes y m t) : t.symbols.bindings? y = some m := by
  refine SymbolTable.bindings?_eq_some_iff.2 ⟨named, ⟨scopes.size⟩,
    { id := ⟨scopes.size⟩, owner := y, bindings := m }, h.find_symbol hfind, hscope, ?_, rfl⟩
  rw [SymbolTable.findScope_eq_ok_iff, h.newest]
  exact Array.getElem?_push_size

/-- A name is bound in the newest scope. -/
theorem defineIn {name : String} {x : SymbolId} {symbols : SymbolTable}
    (h : s.FillsNewest scopes y m t) (hdefine : t.symbols.defineIn y name x = .ok symbols) :
    s.FillsNewest scopes y (m.insert name x) { t with symbols } := by
  have hnamed : t.symbols.find y = .ok named := h.find_symbol hfind
  obtain ⟨id, hid, hdefine⟩ := SymbolTable.defineIn_eq_ok hdefine
  obtain ⟨named', hnamed', hscope'⟩ := SymbolTable.scopeOf_eq_ok_iff.1 hid
  obtain rfl := Except.ok.inj (hnamed.symm.trans hnamed')
  obtain rfl := Option.some.inj (hscope.symm.trans hscope')
  obtain ⟨found, extended, hfound, hextended, rfl⟩ := SymbolTable.define_eq_ok hdefine
  obtain ⟨-, rfl⟩ := Scope.define_eq_ok_iff.1 hextended
  rw [SymbolTable.findScope_eq_ok_iff, h.newest, Array.getElem?_push_size] at hfound
  obtain rfl := Option.some.inj hfound
  refine ⟨?_, h.symbols, ?_⟩
  · rw [h.aside]
  · dsimp only
    rw [h.newest, Grows.setIfInBounds_push]

end Session.FillsNewest

namespace Synth

variable {ctx : Context} {cloner : Option Cloner} {plan : FieldPlan} {f f' : Field}
  {fs fields : List Field} {s t : Session} {S : SymbolTable} {m : OrderedMap String SymbolId}

/-! ## What is touched -/

/-- **Nothing changes but the newest scope**, however the building of plain fields ends. -/
theorem ends_buildAll_newest {scopes : Array Scope} {named : Symbol}
    (hfind : s.symbols.find plan.holder = .ok named) (hscope : named.scope = some ⟨scopes.size⟩)
    (hplain : plan.immutable = false) (h : s.FillsNewest scopes plan.holder m s) :
    Ends (fs.mapM (buildField ctx cloner plan)) s
      (fun _ t => ∃ m', s.FillsNewest scopes plan.holder m' t)
      fun _ t => ∃ m', s.FillsNewest scopes plan.holder m' t := by
  refine ends_mapM (I := fun _ _ t => ∃ m', s.FillsNewest scopes plan.holder m' t) ⟨m, h⟩
    fun _ _ f _ t _ ht => ?_
  refine ends_buildField (I := fun u => ∃ m', s.FillsNewest scopes plan.holder m' u) ?_ ?_ ?_
  · unfold fieldType
    rw [hplain]
    exact ht
  · rintro u kind d ⟨m', hu⟩
    refine ⟨m', ?_, hu.symbols.trans (u.symbols.grows_add kind d), hu.newest⟩
    rw [hu.aside]
  · rintro u x symbols ⟨m', hu⟩ hdefine
    exact ⟨m'.insert f.name x, hu.defineIn hfind hscope hdefine⟩

/-! ## Names that are taken -/

/-- A plain field that can be declared is refused if its name is taken. -/
theorem buildField_taken (hplain : plan.immutable = false) {k : SymbolKind} {d : Declaration}
    (hd : Declares s.symbols s.types plan f f.ty k d)
    (hm : s.symbols.bindings? plan.holder = some m) (htaken : f.name ∈ m.keys) :
    ∃ owner existing t, buildField ctx cloner plan f s =
      .error (Fault.nameTaken f.name owner existing) t := by
  obtain ⟨ty, hty⟩ := hd.exists_ty
  obtain ⟨htemplate, himplied, hfound, hshapes⟩ := hd
  have hm' : (s.symbols.add k d).2.bindings? plan.holder = some m :=
    SymbolTable.bindings?_grows (s.symbols.grows_add k d) (.refl _) hm
  obtain ⟨named, id, scope, hnamed, hid, hscope, rfl⟩ := SymbolTable.bindings?_eq_some_iff.1 hm'
  let u : Session := { s with symbols := (s.symbols.add k d).2 }
  obtain ⟨existing, hexisting⟩ :=
    define_taken (x := ⟨s.symbols.symbols.size⟩) (s := u) hnamed hid hscope htaken
  have htype : fieldType ctx cloner plan f.ty s = .ok f.ty s :=
    (fieldType_eq_ok_iff_of_plain hplain).2 ⟨rfl, rfl⟩
  have hdeclared : fieldDeclaration plan f f.ty s = .ok (plan.inherit f f.ty _) s :=
    fieldDeclaration_eq_ok_iff.2 ⟨rfl, _, htemplate, rfl⟩
  have himplied' : Synth.implied f.ty s = .ok _ s := reading_eq_ok_iff.2 ⟨himplied, rfl⟩
  have hadded : addSymbol k d s = .ok ⟨s.symbols.symbols.size⟩ u := rfl
  have htyped : typeOf ⟨s.symbols.symbols.size⟩ u = .ok ty u :=
    typeOf_eq (SymbolTable.find_add_self s.symbols k d) hty
  refine ⟨scope.owner, existing, u, ?_⟩
  unfold buildField
  rw [bind_of_ok htype, bind_of_ok hdeclared, bind_of_ok himplied', bind_of_ok (entry_eq hfound),
    bind_of_ok (specializeField_of_shapes hshapes)]
  dsimp only
  rw [bind_of_ok hadded, bind_of_ok htyped, bind_of_error hexisting]

/-- **Plain fields are built unless a name is taken.** -/
theorem buildAll_or_taken (hcl : ∀ cl ∈ cloner, cl.Searches) (hplain : plan.immutable = false)
    (hS : Grows S.symbols s.symbols.symbols)
    (hd : ∀ f ∈ fs, ∃ k d, Declares S s.types plan f f.ty k d)
    (hm : s.symbols.bindings? plan.holder = some m) :
    (∃ fields t, BuildsAll ctx cloner plan fs s fields t) ∨
      ∃ name owner existing t, fs.mapM (buildField ctx cloner plan) s =
        .error (Fault.nameTaken name owner existing) t := by
  induction fs generalizing s m with
  | nil => exact .inl ⟨[], s, .nil⟩
  | cons f fs ih =>
    rw [List.forall_mem_cons] at hd
    obtain ⟨⟨k, d, hd⟩, hrest⟩ := hd
    have hd' : Declares s.symbols s.types plan f f.ty k d :=
      hd.grows fun x named hx => SymbolTable.find_mono hS hx
    rw [List.mapM_cons]
    by_cases htaken : f.name ∈ m.keys
    · obtain ⟨owner, existing, t, ht⟩ : ∃ owner existing t, buildField ctx cloner plan f s =
          .error (Fault.nameTaken f.name owner existing) t :=
        buildField_taken hplain hd' hm htaken
      exact .inr ⟨f.name, owner, existing, t, bind_eq_error_iff.2 (.inl ht)⟩
    · obtain ⟨f', t, hfirst⟩ : ∃ f' t, Builds ctx cloner plan f s f' t :=
        exists_builds hplain hd' hm htaken
      obtain ⟨x, -, -, -, -, -, -, hbound⟩ := hfirst.bound hcl hm
      rcases ih (hS.trans (hfirst.preserves hcl).symbols) (hfirst.types_eq hplain ▸ hrest)
          hbound with
        ⟨fields, u, hall⟩ | ⟨name, owner, existing, u, hu⟩
      · exact .inl ⟨f' :: fields, u, .cons hfirst hall⟩
      · exact .inr ⟨name, owner, existing, u, bind_eq_error_iff.2
          (.inr ⟨f', t, buildField_eq_ok_iff.2 hfirst, bind_eq_error_iff.2 (.inl hu)⟩)⟩

/-! ## The symbols of the fields -/

/-- One symbol is added for a plain field. -/
theorem Builds.symbol_of_plain (hplain : plan.immutable = false)
    (h : Builds ctx cloner plan f s f' t) :
    f'.symbol = some ⟨s.symbols.symbols.size⟩ ∧
      t.symbols.symbols.size = s.symbols.symbols.size + 1 := by
  obtain ⟨type, -, -, binds⟩ := h
  obtain ⟨-, rfl⟩ := (fieldType_eq_ok_iff_of_plain hplain).1 type
  obtain ⟨-, -, -, -, hsymbols⟩ := SymbolTable.bindings?_defineIn binds
  refine ⟨rfl, ?_⟩
  dsimp only
  rw [hsymbols, SymbolTable.add, Array.size_push]

/-- **The symbols of plain fields are added one after the other.** -/
theorem BuildsAll.symbols_of_plain (hplain : plan.immutable = false)
    (h : BuildsAll ctx cloner plan fs s fields t) :
    fields.map (·.symbol) = (symbolsFrom s.symbols.symbols.size fs.length).map some ∧
      t.symbols.symbols.size = s.symbols.symbols.size + fs.length := by
  unfold symbolsFrom
  induction h with
  | nil => exact ⟨rfl, rfl⟩
  | cons first _ ih =>
    obtain ⟨hsymbol, hsize⟩ := first.symbol_of_plain hplain
    obtain ⟨hsymbols, hsizes⟩ := ih
    constructor
    · rw [List.map_cons, hsymbol, hsymbols, hsize, List.length_cons, List.range_succ_eq_map]
      simp [Nat.add_assoc, Nat.add_comm 1]
    · rw [hsizes, hsize, List.length_cons]
      omega

/-- **Plain fields that are built in an empty scope are the names that it has then**, in order. -/
theorem BuildsAll.entries_of_newest {scopes : Array Scope} {named : Symbol}
    (hcl : ∀ cl ∈ cloner, cl.Searches) (hplain : plan.immutable = false)
    (h : BuildsAll ctx cloner plan fs s fields t)
    (hfind : s.symbols.find plan.holder = .ok named) (hscope : named.scope = some ⟨scopes.size⟩)
    (hs : s.FillsNewest scopes plan.holder ∅ s) (ht : s.FillsNewest scopes plan.holder m t) :
    m.entries = (fs.map (·.name)).zip (symbolsFrom s.symbols.symbols.size fs.length) := by
  have hempty : s.symbols.bindings? plan.holder = some ∅ := hs.bindings? hfind hscope
  obtain ⟨xs, hplaced⟩ := h.placed hcl fun _ => ⟨∅, hempty⟩
  obtain ⟨m', hm', hentries⟩ := hplaced.bound ∅ hempty
  obtain rfl := Option.some.inj ((ht.bindings? hfind hscope).symm.trans hm')
  have hxs : xs = symbolsFrom s.symbols.symbols.size fs.length :=
    (List.map_inj_right fun _ _ => Option.some.inj).1
      (hplaced.symbols.symm.trans (h.symbols_of_plain hplain).1)
  rw [hentries, hxs]
  rfl

end Synth

end StructuralTypes
