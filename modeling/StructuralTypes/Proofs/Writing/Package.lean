import Mathlib.Logic.Relation
import StructuralTypes.Package.Basic

/-!
# What can be written to a package

A package keeps two registries, of type definitions and of class definitions. They are written to in
one way, which is the same for both: a definition is entered at the end under a symbol that has none
yet. Imports are the only other thing that is ever written to a package.

Results:
* `registerType_eq_ok_iff_enter`, `registerClass_eq_ok_iff_enter`: registering is entering.
* **`Distinct.writes`**: no symbol gets two definitions in one registry.
* **`DefinitionsGrow.of_writes`**: definitions are only ever appended.
-/

namespace StructuralTypes

/-- The registries of a package. -/
inductive Registry
  /-- Type definitions. -/
  | types
  /-- Class definitions. -/
  | classes
deriving DecidableEq

/-- What a registry holds. -/
inductive Definition
  /-- The definition of a type. -/
  | ofType (d : TypeDefinition)
  /-- The definition of a class. -/
  | ofClass (d : ClassDefinition)
deriving DecidableEq

namespace Definition

/-- The registry for definitions of this kind. -/
def registry : Definition → Registry
  | ofType _ => .types
  | ofClass _ => .classes

/-- The symbol that the definition is registered under. -/
def symbol : Definition → SymbolId
  | ofType d => d.symbol
  | ofClass d => d.symbol

end Definition

namespace Package

variable {p q : Package} {r : Registry} {x : Definition} {n : Nat}

/-- The definitions in a registry, by number. -/
def definitions (p : Package) : Registry → List Definition
  | .types => p.typeDefinitions.map .ofType
  | .classes => p.classDefinitions.map .ofClass

/-- The symbols that have a definition in a registry. -/
def symbols (p : Package) (r : Registry) : List SymbolId := (p.definitions r).map (·.symbol)

/-- The package with one more definition. -/
def enter (p : Package) : Definition → Package
  | .ofType d => { p with typeDefinitions := p.typeDefinitions ++ [d] }
  | .ofClass d => { p with classDefinitions := p.classDefinitions ++ [d] }

@[simp] theorem definitions_empty (id : PackageId) (name : String) (r : Registry) :
    ({ id, name } : Package).definitions r = [] := by
  cases r <;> rfl

@[simp] theorem definitions_addImport (i : Import) :
    (p.addImport i).definitions = p.definitions := by
  funext r
  cases r <;> rfl

theorem definitions_enter (p : Package) (x : Definition) (r : Registry) :
    (p.enter x).definitions r = p.definitions r ++ if r = x.registry then [x] else [] := by
  cases x <;> cases r <;> simp [enter, definitions, Definition.registry]

theorem definitions_enter_self (p : Package) (x : Definition) :
    (p.enter x).definitions x.registry = p.definitions x.registry ++ [x] := by
  simp [definitions_enter]

theorem symbols_enter (p : Package) (x : Definition) (r : Registry) :
    (p.enter x).symbols r = p.symbols r ++ if r = x.registry then [x.symbol] else [] := by
  unfold symbols
  rw [definitions_enter, List.map_append]
  split <;> rfl

theorem mem_symbols_enter {y : SymbolId} :
    y ∈ (p.enter x).symbols r ↔ y ∈ p.symbols r ∨ r = x.registry ∧ y = x.symbol := by
  rw [symbols_enter, List.mem_append]
  split <;> simp [*]

theorem symbols_types (p : Package) : p.symbols .types = p.typeDefinitions.map (·.symbol) := by
  simp [symbols, definitions, Definition.symbol]

theorem symbols_classes (p : Package) : p.symbols .classes = p.classDefinitions.map (·.symbol) := by
  simp [symbols, definitions, Definition.symbol]

/-- **To register a type definition is to enter it.** -/
theorem registerType_eq_ok_iff_enter {d : TypeDefinition} :
    p.registerType d = .ok (n, q) ↔ d.symbol ∉ p.symbols .types ∧
      n = (p.definitions .types).length ∧ q = p.enter (.ofType d) := by
  rw [registerType_eq_ok_iff, symbols_types, definitions, List.length_map]
  rfl

/-- **To register a class definition is to enter it.** -/
theorem registerClass_eq_ok_iff_enter {d : ClassDefinition} :
    p.registerClass d = .ok (n, q) ↔ d.symbol ∉ p.symbols .classes ∧
      n = (p.definitions .classes).length ∧ q = p.enter (.ofClass d) := by
  rw [registerClass_eq_ok_iff, symbols_classes, definitions, List.length_map]
  rfl

/-! ## Writes -/

/-- One write to a package. -/
inductive Write (p : Package) : Package → Prop
  /-- A definition is entered. -/
  | enter (x : Definition) (free : x.symbol ∉ p.symbols x.registry) : Write p (p.enter x)
  /-- An import is appended. -/
  | addImport (i : Import) : Write p (p.addImport i)

/-- Any number of writes to a package. -/
abbrev Writes : Package → Package → Prop := Relation.ReflTransGen Write

theorem Write.of_registerType {d : TypeDefinition} (h : p.registerType d = .ok (n, q)) :
    p.Write q := by
  obtain ⟨hfree, -, rfl⟩ := registerType_eq_ok_iff_enter.1 h
  exact .enter (.ofType d) hfree

theorem Write.of_registerClass {d : ClassDefinition} (h : p.registerClass d = .ok (n, q)) :
    p.Write q := by
  obtain ⟨hfree, -, rfl⟩ := registerClass_eq_ok_iff_enter.1 h
  exact .enter (.ofClass d) hfree

/-- No symbol has two definitions in one registry. -/
def Distinct (p : Package) : Prop := ∀ r, (p.symbols r).Nodup

/-- Both registries of `p` are the beginnings of those of `q`. -/
def DefinitionsGrow (p q : Package) : Prop := ∀ r, p.definitions r <+: q.definitions r

theorem distinct_empty (id : PackageId) (name : String) : Distinct { id, name } :=
  fun r => by simp [symbols]

theorem Distinct.write (h : p.Distinct) (hwrite : p.Write q) : q.Distinct := by
  intro r
  cases hwrite with
  | enter x free =>
    rw [symbols_enter]
    split
    · rename_i hr
      subst hr
      refine List.nodup_append.2 ⟨h _, by simp, fun y hy z hz hyz => ?_⟩
      rw [List.mem_singleton.1 hz] at hyz
      exact free (hyz ▸ hy)
    · rw [List.append_nil]
      exact h r
  | addImport i =>
    unfold symbols
    rw [definitions_addImport]
    exact h r

/-- **No symbol gets two definitions.** -/
theorem Distinct.writes (h : p.Distinct) (hwrites : p.Writes q) : q.Distinct := by
  induction hwrites with
  | refl => exact h
  | tail _ hwrite ih => exact ih.write hwrite

theorem Write.definitionsGrow (h : p.Write q) : p.DefinitionsGrow q := by
  intro r
  cases h with
  | enter x free =>
    rw [definitions_enter]
    exact List.prefix_append _ _
  | addImport i =>
    exact (congrFun (definitions_addImport i) r).symm ▸ List.prefix_rfl

/-- **Definitions are only ever appended.** -/
theorem DefinitionsGrow.of_writes (h : p.Writes q) : p.DefinitionsGrow q := by
  induction h with
  | refl => exact fun r => List.prefix_rfl
  | tail _ hwrite ih => exact fun r => (ih r).trans (hwrite.definitionsGrow r)

/-- What has a number keeps it. -/
theorem DefinitionsGrow.getElem? (h : p.DefinitionsGrow q) (hx : (p.definitions r)[n]? = some x) :
    (q.definitions r)[n]? = some x := by
  obtain ⟨rest, hrest⟩ := h r
  rw [← hrest, List.getElem?_append_left (List.getElem?_eq_some_iff.1 hx).1]
  exact hx

end Package

end StructuralTypes
