import StructuralTypes.Proofs.Outcome
import StructuralTypes.Synthesis.Definition

/-!
# Declarations of fields

The fields of a structure are declared one after the other. A field with a symbol is declared by it,
and nothing changes. A field without one gets a new symbol, behind all others, so the number of such
fields before it tells which of the new symbols is its own.

Results:
* `fieldDeclarationNode_of_symbol`, `fieldDeclarationNode_of_none`: how one field is declared.
* `FieldsDeclared.snoc`: one more field is declared.
* **`ends_fieldDeclarationNodes`**, **`exists_fieldDeclarations`**: all fields are declared.
* `FieldsDeclared.again`: fields that are declared twice get the same names, types and places, and
  the same symbols if they had symbols.
-/

namespace StructuralTypes

variable {S S' S'' : SymbolTable} {package package' : PackageId} {f : Field} {fields : List Field}
  {node node' : VariableNode} {nodes nodes' : List VariableNode} {n : Nat}

/-! ## What is said of fields -/

/-- The field has no symbol. -/
def Field.lacksSymbol (f : Field) : Bool := f.symbol.isNone

/-- The symbol that a field without one gets: an exported variable of the type `pure` that the
compiler made up. -/
def Field.madeSymbol (f : Field) (package : PackageId) (x : SymbolId) : Symbol :=
  { name := f.name, package, flags := .only .exported, origin := .virtual, span := f.span
    ty := some Builtin.pure, id := x, kind := .variable }

/-- The field is declared as `node` says, behind `n` fields without symbols. The symbols were `S`
before all of the declarations and are `S'` now. -/
inductive Field.Declared (S S' : SymbolTable) (package : PackageId) (n : Nat) (f : Field) :
    VariableNode → Prop
  /-- A field with a symbol is declared by the symbol, under its name. -/
  | known {x : SymbolId} {named : Symbol} (symbol : f.symbol = some x)
      (found : S.find x = .ok named) :
      Declared S S' package n f
        { name := ⟨named.name, f.span⟩, ty := f.ty, symbol := x, span := f.span }
  /-- A field without one is declared under its own name, by the new symbol behind `n` others. -/
  | made (symbol : f.symbol = none)
      (found : S'.find ⟨S.symbols.size + n⟩ = .ok (f.madeSymbol package ⟨S.symbols.size + n⟩)) :
      Declared S S' package n f
        { name := ⟨f.name, f.span⟩, ty := f.ty, symbol := ⟨S.symbols.size + n⟩, span := f.span }

/-- More symbols are added. -/
theorem Field.Declared.grow (h : f.Declared S S' package n node)
    (hg : Grows S'.symbols S''.symbols) : f.Declared S S'' package n node := by
  cases h with
  | known symbol found => exact .known symbol found
  | made symbol found => exact .made symbol (SymbolTable.find_mono hg found)

/-- When the field is declared once more, only a made-up symbol is another one. -/
theorem Field.Declared.again (h : f.Declared S S' package n node)
    (hg : Grows S.symbols S'.symbols) (h' : f.Declared S' S'' package' n node') :
    node'.name = node.name ∧ node'.ty = node.ty ∧ node'.span = node.span ∧
      ∀ x, f.symbol = some x → node.symbol = x ∧ node'.symbol = x := by
  cases h with
  | known symbol found =>
    cases h' with
    | known symbol' found' =>
      obtain rfl := Option.some.inj (symbol.symm.trans symbol')
      obtain rfl := Except.ok.inj ((SymbolTable.find_mono hg found).symm.trans found')
      exact ⟨rfl, rfl, rfl, fun x hx => ⟨Option.some.inj (symbol.symm.trans hx),
        Option.some.inj (symbol.symm.trans hx)⟩⟩
    | made symbol' _ => cases symbol.symm.trans symbol'
  | made symbol _ =>
    cases h' with
    | known symbol' _ => cases symbol.symm.trans symbol'
    | made _ _ => exact ⟨rfl, rfl, rfl, fun x hx => by cases symbol.symm.trans hx⟩

/-- The fields are declared as `nodes` says, by the symbols in `S` and new ones in `S'`. -/
structure FieldsDeclared (S S' : SymbolTable) (package : PackageId) (fields : List Field)
    (nodes : List VariableNode) : Prop where
  /-- There is one declaration for each field. -/
  length_eq : nodes.length = fields.length
  /-- They are in the order of the fields. -/
  declared : ∀ (i : Nat) (f : Field) (node : VariableNode), fields[i]? = some f →
    nodes[i]? = some node → f.Declared S S' package ((fields.take i).countP (·.lacksSymbol)) node
  /-- There is one new symbol for each field without one. -/
  size_eq : S'.symbols.size = S.symbols.size + fields.countP (·.lacksSymbol)
  /-- No symbol is changed. -/
  grows : Grows S.symbols S'.symbols
  /-- No scope is changed, and none is added. -/
  scopes_eq : S'.scopes = S.scopes

namespace FieldsDeclared

theorem nil (S : SymbolTable) (package : PackageId) : FieldsDeclared S S package [] [] where
  length_eq := rfl
  declared := by simp
  size_eq := rfl
  grows := .refl _
  scopes_eq := rfl

/-- One more field is declared, and gets a symbol if it has none. -/
theorem snoc (h : FieldsDeclared S S' package fields nodes)
    (hnode : f.Declared S S'' package (fields.countP (·.lacksSymbol)) node)
    (hsize : S''.symbols.size = S'.symbols.size + [f].countP (·.lacksSymbol))
    (hg : Grows S'.symbols S''.symbols) (hscopes : S''.scopes = S'.scopes) :
    FieldsDeclared S S'' package (fields ++ [f]) (nodes ++ [node]) where
  length_eq := by simp [h.length_eq]
  declared i g node' hi hi' := by
    rcases Nat.lt_or_ge i fields.length with hlt | hge
    · rw [List.getElem?_append_left hlt] at hi
      rw [List.getElem?_append_left (h.length_eq ▸ hlt)] at hi'
      rw [List.take_append_of_le_length (Nat.le_of_lt hlt)]
      exact (h.declared i g node' hi hi').grow hg
    · obtain rfl : i = fields.length := by
        have hbound := (List.getElem?_eq_some_iff.1 hi).1
        rw [List.length_append, List.length_singleton] at hbound
        omega
      rw [List.getElem?_concat_length] at hi
      rw [← h.length_eq, List.getElem?_concat_length] at hi'
      obtain rfl := Option.some.inj hi
      obtain rfl := Option.some.inj hi'
      rw [List.take_left]
      exact hnode
  size_eq := by rw [hsize, h.size_eq, List.countP_append, Nat.add_assoc]
  grows := h.grows.trans hg
  scopes_eq := hscopes.trans h.scopes_eq

/-- **Fields that are declared twice** get the same names, types and places. -/
theorem again (h : FieldsDeclared S S' package fields nodes)
    (h' : FieldsDeclared S' S'' package' fields nodes') {i : Nat} (hf : fields[i]? = some f)
    (hnode : nodes[i]? = some node) (hnode' : nodes'[i]? = some node') :
    node'.name = node.name ∧ node'.ty = node.ty ∧ node'.span = node.span ∧
      ∀ x, f.symbol = some x → node.symbol = x ∧ node'.symbol = x :=
  (h.declared i f node hf hnode).again h.grows (h'.declared i f node' hf hnode')

end FieldsDeclared

/-! ## How fields are declared -/

namespace Synth

variable {s : Session}

/-- A field with a symbol is declared by it. -/
theorem fieldDeclarationNode_of_symbol {x : SymbolId} {named : Symbol} (hx : f.symbol = some x)
    (hnamed : s.symbols.find x = .ok named) (package : PackageId) :
    fieldDeclarationNode package f s =
      .ok { name := ⟨named.name, f.span⟩, ty := f.ty, symbol := x, span := f.span } s := by
  unfold fieldDeclarationNode
  rw [hx]
  exact bind_eq_ok_iff.2 ⟨x, s, rfl, bind_eq_ok_iff.2 ⟨named, s, symbol_eq hnamed, rfl⟩⟩

/-- A field without one is declared by a new symbol. -/
theorem fieldDeclarationNode_of_none (hf : f.symbol = none) (package : PackageId) :
    fieldDeclarationNode package f s =
      .ok
        { name := ⟨f.name, f.span⟩, ty := f.ty, symbol := ⟨s.symbols.symbols.size⟩
          span := f.span }
        { s with symbols :=
          { s.symbols with symbols :=
              s.symbols.symbols.push (f.madeSymbol package ⟨s.symbols.symbols.size⟩) } } := by
  unfold fieldDeclarationNode
  rw [hf]
  refine bind_eq_ok_iff.2 ⟨⟨s.symbols.symbols.size⟩, _, rfl, bind_eq_ok_iff.2
    ⟨f.madeSymbol package ⟨s.symbols.symbols.size⟩, _, ?_, rfl⟩⟩
  exact symbol_eq (SymbolTable.find_eq_ok_iff.2 Array.getElem?_push_size)

/-- **All fields are declared**, one after the other, and nothing but new symbols is added. -/
theorem ends_fieldDeclarationNodes (package : PackageId)
    (hin : ∀ f ∈ fields, ∀ x, f.symbol = some x → ∃ named, s.symbols.find x = .ok named) :
    Ends (fields.mapM (fieldDeclarationNode package)) s
      (fun nodes t => FieldsDeclared s.symbols t.symbols package fields nodes ∧
        t = { s with symbols := t.symbols }) fun _ _ => False := by
  refine ends_mapM (I := fun pre nodes (t : Session) =>
    FieldsDeclared s.symbols t.symbols package pre nodes ∧ t = { s with symbols := t.symbols })
    ⟨.nil s.symbols package, rfl⟩ ?_
  rintro pre nodes f post t hsplit ⟨h, ht⟩
  cases hf : f.symbol with
  | some x =>
    obtain ⟨named, hnamed⟩ := hin f (by simp [hsplit]) x hf
    have hnamed' := SymbolTable.find_mono h.grows hnamed
    refine (ends_of_ok (fieldDeclarationNode_of_symbol hf hnamed' package)).2
      ⟨h.snoc (.known hf hnamed) ?_ (.refl _) rfl, ht⟩
    simp [Field.lacksSymbol, hf]
  | none =>
    refine (ends_of_ok (fieldDeclarationNode_of_none hf package)).2
      ⟨h.snoc (h.size_eq ▸ .made hf ?_) ?_ (.push _ _) rfl, by rw [ht]⟩
    · rw [← h.size_eq]
      exact SymbolTable.find_eq_ok_iff.2 Array.getElem?_push_size
    · simp [Field.lacksSymbol, hf]

/-- **The fields of a structure are declared** if all their symbols are there. -/
theorem exists_fieldDeclarations {ty : TypeId} {e : TypeEntry} {fields : FieldMap}
    (he : s.types.find ty = .ok e) (hfields : e.ty.fields? = some fields)
    (hin : ∀ f ∈ fields.values, ∀ x, f.symbol = some x → ∃ named, s.symbols.find x = .ok named)
    (package : PackageId) :
    ∃ nodes symbols, fieldDeclarations ty package s = .ok nodes { s with symbols } ∧
      FieldsDeclared s.symbols symbols package fields.values nodes := by
  have hends := ends_fieldDeclarationNodes package hin
  unfold fieldDeclarations
  rw [bind_of_ok (fieldsOf_eq he hfields)]
  cases hrun : fields.values.mapM (fieldDeclarationNode package) s with
  | error x t => exact (hends.of_error hrun).elim
  | ok nodes t =>
    obtain ⟨h, ht⟩ := hends.of_ok hrun
    exact ⟨nodes, t.symbols, by rw [← ht], h⟩

end Synth

end StructuralTypes
