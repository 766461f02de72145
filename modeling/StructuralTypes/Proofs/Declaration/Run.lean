import StructuralTypes.Proofs.Declaration.Session
import StructuralTypes.Proofs.Population.Structure

/-!
# Declarations in a closed compilation

In a closed compilation all symbols of fields are there, so the fields of any structure can be
declared. Declaring them leaves the structure as it is: what is made up for a field is not kept in
the field. When the fields are declared again, new symbols are made up for those without one.

Results:
* `exists_fieldDeclarations`: the fields of a structure are declared.
* **`fieldDeclarations_mirror`**: the declarations mirror the fields, and do so again.
-/

namespace StructuralTypes

namespace Compilation

variable {c : Compilation} {ty : TypeId} {e : TypeEntry} {fields : FieldMap}

/-- The fields of a structure are declared if all their symbols are there. -/
theorem exists_fieldDeclarations (he : c.types.find ty = .ok e)
    (hfields : e.ty.fields? = some fields)
    (hin : ∀ f ∈ fields.values, ∀ x, f.symbol = some x → ∃ named, c.symbols.find x = .ok named)
    (package : PackageId) :
    ∃ nodes symbols, fieldDeclarations ty package c = .ok nodes { c with symbols } ∧
      FieldsDeclared c.symbols symbols package fields.values nodes := by
  obtain ⟨nodes, symbols, hrun, h⟩ :=
    Synth.exists_fieldDeclarations (s := c.session { id := ⟨0⟩, name := "" } {}) he hfields hin
      package
  refine ⟨nodes, symbols, ?_, h⟩
  unfold fieldDeclarations onTables
  rw [hrun]
  rfl

/-- In a closed compilation the symbols of fields are there. -/
theorem Closed.exists_symbolOf (hc : c.Closed) (he : c.types.find ty = .ok e)
    (hfields : e.ty.fields? = some fields) :
    ∀ f ∈ fields.values, ∀ x, f.symbol = some x → ∃ named, c.symbols.find x = .ok named := by
  intro f hf x hx
  have hsymbol := (within_field.1 (hc.tables.within_fieldsOf he hfields f hf)).2
  rw [hx, within_some] at hsymbol
  exact (hc.tables.exists_symbol hsymbol).imp fun _ h => h.1

/-- **The declarations of a structure mirror its fields**, whichever of them have symbols, and only
symbols are added. When they are made again, no matter for which package, they have the same names,
types and places, and those by a symbol of the field have the same symbol. -/
theorem fieldDeclarations_mirror (c : Compilation) (ty : TypeId) (e : TypeEntry)
    (fields : FieldMap) (package : PackageId) (hc : c.Closed) (he : c.types.find ty = .ok e)
    (hfields : e.ty.fields? = some fields) :
    ∃ nodes symbols, fieldDeclarations ty package c = .ok nodes { c with symbols } ∧
      FieldsDeclared c.symbols symbols package fields.values nodes ∧
      ∀ package', ∃ nodes' symbols', fieldDeclarations ty package' { c with symbols } =
          .ok nodes' { c with symbols := symbols' } ∧
        FieldsDeclared symbols symbols' package' fields.values nodes' ∧
        ∀ (i : Nat) (f : Field) (node node' : VariableNode), fields.values[i]? = some f →
          nodes[i]? = some node → nodes'[i]? = some node' →
          node'.name = node.name ∧ node'.ty = node.ty ∧ node'.span = node.span ∧
            ∀ x, f.symbol = some x → node.symbol = x ∧ node'.symbol = x := by
  have hin := hc.exists_symbolOf he hfields
  obtain ⟨nodes, symbols, hrun, h⟩ := exists_fieldDeclarations he hfields hin package
  have hin' : ∀ f ∈ fields.values, ∀ x, f.symbol = some x →
      ∃ named, symbols.find x = .ok named := fun f hf x hx =>
    (hin f hf x hx).imp fun _ hnamed => SymbolTable.find_mono h.grows hnamed
  refine ⟨nodes, symbols, hrun, h, fun package' => ?_⟩
  obtain ⟨nodes', symbols', hrun', h'⟩ :=
    exists_fieldDeclarations (c := { c with symbols }) he hfields hin' package'
  exact ⟨nodes', symbols', hrun', h', fun _ _ _ _ hf hnode hnode' => h.again h' hf hnode hnode'⟩

/-- The fields of a record, the second of which has a symbol. -/
def mixedFields : FieldMap :=
  .ofList [("first", { name := "first", ty := Builtin.int }),
    ("second", { name := "second", ty := ⟨14⟩, symbol := some ⟨2⟩ }),
    ("third", { name := "third", ty := Builtin.string })]

/-- A record with these fields. The symbol has another name than its field. -/
def mixed : Compilation :=
  app [("Mixed", ⟨14⟩), ("renamed", ⟨14⟩)]
    [{ ty := .record { fields := mixedFields }, symbol := some ⟨1⟩ }]

theorem mixed_mirrored : mixed.Closed ∧
    ∃ nodes symbols, fieldDeclarations ⟨14⟩ ⟨0⟩ mixed = .ok nodes { mixed with symbols } ∧
      FieldsDeclared mixed.symbols symbols ⟨0⟩ mixedFields.values nodes ∧
      nodes.map (fun node => (node.name.name, node.symbol)) =
        [("first", ⟨3⟩), ("renamed", ⟨2⟩), ("third", ⟨4⟩)] := by
  have hc : mixed.Closed := by decide +kernel
  obtain ⟨nodes, symbols, hrun, h, -⟩ :=
    fieldDeclarations_mirror mixed ⟨14⟩ _ mixedFields ⟨0⟩ hc rfl rfl
  refine ⟨hc, nodes, symbols, hrun, h, ?_⟩
  have hnodes : (answers? (fieldDeclarations ⟨14⟩ ⟨0⟩ mixed)).map
      (·.map fun node => (node.name.name, node.symbol)) =
        some [("first", ⟨3⟩), ("renamed", ⟨2⟩), ("third", ⟨4⟩)] := by
    decide +kernel
  rw [hrun] at hnodes
  exact Option.some.inj hnodes

end Compilation

end StructuralTypes
