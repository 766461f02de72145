import StructuralTypes.Proofs.Attachment.Anatomy
import StructuralTypes.Proofs.Faithful.Run
import StructuralTypes.Proofs.Population.Failure

/-!
# References and imports

A reference to a named type says by which name the type is known where it stands: that of its
symbol, qualified by the local name of the first import of that symbol's package. A structure that
takes over the fields of a readonly record refers to it in this way, and so do the readonly clones.
The node of an error type refers to its detail by name, too, but never qualifies it.

Results:
* `TypeReference.Qualified.name`, `TypeReference.Qualified.qualifier`: what is said of a type.
* `Synth.ends_errorNode`: the reference to a detail has its name, and no qualifier.
* **`emitsReference_qualified_iff`**: when a reference is qualified as the type is imported.
-/

namespace StructuralTypes

/-- The reference is to a type whose symbol is `named`. -/
def TypeReference.RefersTo (r : TypeReference) (S : SymbolTable) (T : TypeTable)
    (named : Symbol) : Prop :=
  ∃ target e y, r.ty = some target ∧ T.find target = .ok e ∧ e.symbol = some y ∧
    S.find y = .ok named

namespace TypeReference

variable {r : TypeReference} {S : SymbolTable} {T : TypeTable} {p : Package} {named named' : Symbol}
  {localName : String}

/-- There is just one symbol. -/
theorem RefersTo.unique (h : r.RefersTo S T named) (h' : r.RefersTo S T named') :
    named' = named := by
  obtain ⟨target, e, y, hr, he, hy, hnamed⟩ := h
  obtain ⟨target', e', y', hr', he', hy', hnamed'⟩ := h'
  obtain rfl := Option.some.inj (hr.symm.trans hr')
  obtain rfl := Except.ok.inj (he.symm.trans he')
  obtain rfl := Option.some.inj (hy.symm.trans hy')
  exact Except.ok.inj (hnamed'.symm.trans hnamed)

/-- A qualified reference has the name of the symbol, and the local name of its package. -/
theorem Qualified.names (h : r.Qualified S T p.imports) (hnamed : r.RefersTo S T named)
    (haliases : Aliases named.package p.imports localName) :
    r.name.name = named.name ∧ r.qualifier.name = localName := by
  obtain ⟨target, e, y, named', hr, he, hy, hfound, hname, hqualifier⟩ := h
  obtain rfl := RefersTo.unique hnamed ⟨target, e, y, hr, he, hy, hfound⟩
  exact ⟨hname, (aliases_iff.1 hqualifier).symm.trans (aliases_iff.1 haliases)⟩

end TypeReference

/-- How a reference to a named type comes about. -/
inductive ReferenceOrigin
  /-- A structure refers to that whose fields it takes over. -/
  | source
  /-- An error refers to its detail. -/
  | detail

namespace Synth

variable {s : Session}

/-- A detail that has a name is referred to by it. -/
theorem ends_errorDetailReferenceName (e : TypeEntry) :
    Ends (errorDetailReferenceName e) s
      (fun name t => t.symbols = s.symbols ∧ t.types = s.types ∧ ∀ y named,
        e.symbol = some y → s.symbols.find y = .ok named → named.name ≠ "" → name = named.name)
      fun _ _ => True := by
  unfold errorDetailReferenceName nameOrEmpty
  cases hsymbol : e.symbol with
  | none => exact ⟨rfl, rfl, by simp⟩
  | some y =>
    refine ends_bind.2 (ends_bind.2 (ends_reading.2 ⟨fun named hnamed => ?_, fun _ _ => trivial⟩))
    refine ends_pure.2 ?_
    split
    · rename_i hempty
      refine ⟨rfl, rfl, fun y' named' hy hfound hne => ?_⟩
      cases hy
      obtain rfl := Except.ok.inj (hnamed.symm.trans hfound)
      exact absurd (String.isEmpty_iff.1 hempty) hne
    · refine ⟨rfl, rfl, fun y' named' hy hfound _ => ?_⟩
      cases hy
      obtain rfl := Except.ok.inj (hnamed.symm.trans hfound)
      rfl

/-- **A detail that has a name is referred to by it, without a qualifier.** -/
theorem ends_errorNode (ty : TypeId) (span : Span) :
    Ends (errorNode ty span) s
      (fun n t => ∀ span' ty' r, n = .error span' ty' (.reference r) → r.qualifier.name = "" ∧
        ∀ named, r.RefersTo t.symbols t.types named → named.name ≠ "" → r.name.name = named.name)
      fun _ _ => True := by
  unfold errorNode
  refine ends_bind.2 ((inspects_errorDetail ty s).imp ?_ fun _ _ _ => trivial)
  rintro detail _ rfl
  refine ends_bind.2 (ends_reading.2 ⟨fun e he => ?_, fun _ _ => trivial⟩)
  split
  · -- a map is not referred to by name
    rintro span' ty' r ⟨⟩
  · refine ends_bind.2 ((ends_errorDetailReferenceName e).imp ?_ fun _ _ _ => trivial)
    rintro name t ⟨hsymbols, htypes, hname⟩ span' ty' r ⟨⟩
    refine ⟨rfl, ?_⟩
    rintro named ⟨_, e', y, ⟨⟩, he', hy, hnamed⟩ hne
    rw [htypes] at he'
    obtain rfl := Except.ok.inj (he.symm.trans he')
    exact hname y named hy (hsymbols ▸ hnamed) hne

end Synth

namespace Compilation

variable {c c' : Compilation} {p : Package} {r : TypeReference} {named : Symbol}
  {localName : String}

/-- From `c` to `c'` the reference has come about, in the package that was `p`. -/
inductive EmitsReference (c c' : Compilation) (p : Package) (r : TypeReference) :
    ReferenceOrigin → Prop
  /-- It has been added to the references of a stored node. -/
  | populated {env : Environment} {memo : Option Nat} {pending position : Nat} {q : Population}
      {tree tree' : TypeNode} {node node' : StructureNode}
      (package : c.packages[env.package]? = some p)
      (built : buildFields env memo pending q position c = .ok () c')
      (before : c.nodes[position]? = some tree ∧ tree.structure? = some node)
      (after : c'.nodes[position]? = some tree' ∧ tree'.structure? = some node')
      (added : r ∈ node'.references.drop node.references.length) : EmitsReference c c' p r .source
  /-- It is in the definition of a clone. -/
  | cloned {command : Command} {d : TypeDefinition} {node : StructureNode}
      (clones : command.Clones) (done : command.action c = .ok () c') (gained : c.Gains c' p d)
      (found : d.node.structure? = some node) (listed : r ∈ node.references) :
      EmitsReference c c' p r .source
  /-- It is in the node of an error type, which is stored. -/
  | detail {env : Environment} {ty : TypeId} {span span' : Span} {ty' : Option TypeId}
      {position : Nat} (package : c.packages[env.package]? = some p)
      (stored : errorNode env ty span c = .ok position c')
      (found : c'.nodes[position]? = some (.error span' ty' (.reference r))) :
      EmitsReference c c' p r .detail

/-- The references that are added to a stored node are qualified. -/
theorem populated_qualified {env : Environment} {memo : Option Nat} {pending position : Nat}
    {q : Population} {tree tree' : TypeNode} {node node' : StructureNode}
    (package : c.packages[env.package]? = some p)
    (built : buildFields env memo pending q position c = .ok () c')
    (before : c.nodes[position]? = some tree ∧ tree.structure? = some node)
    (after : c'.nodes[position]? = some tree' ∧ tree'.structure? = some node')
    (added : r ∈ node'.references.drop node.references.length) :
    r.Qualified c'.symbols c'.types p.imports := by
  have h : Ends (buildFields env memo pending q position) c
      (fun _ c' => ∀ tree' node', c'.nodes[position]? = some tree' →
        tree'.structure? = some node' → ∀ r ∈ node'.references.drop node.references.length,
          r.Qualified c'.symbols c'.types p.imports)
      fun _ _ => True := by
    refine (ends_buildFields before.1 before.2 package).2
      ((Synth.ends_buildFields_faithful (keepsFaithful_cloner? _ _) q node).imp ?_
        fun _ _ _ => trivial)
    rintro made t ⟨hkeeps, references, rfl, hqualified⟩ tree' node' htree hnode r hr
    have hlt := (Array.getElem?_eq_some_iff.1 before.1).1
    obtain rfl := Option.some.inj ((Array.getElem?_setIfInBounds_self_of_lt hlt).symm.trans htree)
    rw [TypeNode.structure?_withStructure before.2] at hnode
    obtain rfl := Option.some.inj hnode
    rw [List.drop_left] at hr
    have himports : t.package.imports = p.imports := hkeeps.imports
    rw [← himports]
    exact hqualified r hr
  exact (ends_of_ok built).1 h tree' node' after.1 after.2 r added

/-- The reference to a detail has its name, and no qualifier. -/
theorem detail_unqualified {env : Environment} {ty : TypeId} {span span' : Span}
    {ty' : Option TypeId} {position : Nat} (stored : errorNode env ty span c = .ok position c')
    (found : c'.nodes[position]? = some (.error span' ty' (.reference r))) :
    r.qualifier.name = "" ∧ ∀ named, r.RefersTo c'.symbols c'.types named → named.name ≠ "" →
      r.name.name = named.name := by
  obtain ⟨n, d, hrun, hstored⟩ := bind_eq_ok_iff.1 stored
  cases hstored
  obtain ⟨package, t, -, hnode, rfl⟩ := synthesize_eq_ok_iff.1 hrun
  have hn : n = .error span' ty' (.reference r) :=
    Option.some.inj (Array.getElem?_push_size.symm.trans found)
  exact (ends_of_ok hnode).1 (Synth.ends_errorNode ty span) span' ty' r hn

/-- **A reference to a named type has its name. It is qualified as the type is imported, unless it
is to a detail that is known by a qualified name.** -/
theorem emitsReference_qualified_iff (c c' : Compilation) (p : Package) (r : TypeReference)
    (origin : ReferenceOrigin) (named : Symbol) (localName : String)
    (h : EmitsReference c c' p r origin) (hnamed : r.RefersTo c'.symbols c'.types named)
    (hname : named.name ≠ "") (haliases : Aliases named.package p.imports localName) :
    r.name.name = named.name ∧
      (r.qualifier.name = localName ↔ origin = .source ∨ localName = "") := by
  cases h with
  | populated package built before after added =>
    obtain ⟨heq, hqualifier⟩ :=
      (populated_qualified package built before after added).names hnamed haliases
    exact ⟨heq, iff_of_true hqualifier (.inl rfl)⟩
  | @cloned command d node clones done gained found listed =>
    have hqualified := (clones.gainsFaithful done p d gained).references node found r listed
    obtain ⟨heq, hqualifier⟩ := hqualified.names hnamed haliases
    exact ⟨heq, iff_of_true hqualifier (.inl rfl)⟩
  | detail package stored found =>
    obtain ⟨hunqualified, heq⟩ := detail_unqualified stored found
    refine ⟨heq named hnamed hname, ?_⟩
    rw [hunqualified]
    simp [eq_comm]

/-- The symbol of a record in another package. -/
def foreignDetail : Symbol :=
  { name := "Detail", package := ⟨5⟩, span := {}, ty := some ⟨14⟩, id := ⟨1⟩, kind := .type {} }

/-- A package that knows this other package as `lib`. -/
def importing : Package :=
  { id := ⟨0⟩, name := "app", imports := [{ localName := ⟨"lib", {}⟩, target := some ⟨5⟩ }] }

/-- The record, another one in this package with a stored node, and an error type with the record as
its detail. -/
def foreign : Compilation :=
  { app [("Detail", ⟨14⟩), ("Copy", ⟨15⟩)]
      [appRecord ⟨1⟩ [], appRecord ⟨2⟩ [], { ty := .error ⟨14⟩ }] with
    packages := #[importing], nodes := #[.record {}] }.execute [.setSymbol ⟨1⟩ foreignDetail]

/-- How the record is referred to, with a qualifier. -/
def foreignReference (qualifier : String) : TypeReference :=
  { qualifier := ⟨qualifier, {}⟩, name := ⟨"Detail", {}⟩, ty := some ⟨14⟩, span := {} }

theorem foreignReference_refersTo {c' : Compilation} (qualifier : String)
    (h : c'.types.find ⟨14⟩ = .ok (appRecord ⟨1⟩ []) ∧ c'.symbols.find ⟨1⟩ = .ok foreignDetail) :
    (foreignReference qualifier).RefersTo c'.symbols c'.types foreignDetail :=
  ⟨⟨14⟩, _, ⟨1⟩, rfl, h.1, rfl, h.2⟩

/-- The node of the error type refers to the record as if it were in this package. -/
theorem foreign_unqualified : foreign.Closed ∧ ∃ c' r named,
    EmitsReference foreign c' importing r .detail ∧ r.RefersTo c'.symbols c'.types named ∧
      named.name ≠ "" ∧ Aliases named.package importing.imports "lib" ∧
      r.qualifier.name ≠ "lib" := by
  have hrun : answers? (errorNode ⟨0, ⟨0⟩⟩ ⟨16⟩ {} foreign) = some 1 := by decide +kernel
  obtain ⟨c', hc'⟩ := answers?_eq_some hrun
  have hafter : foreign.after (errorNode ⟨0, ⟨0⟩⟩ ⟨16⟩ {}) = c' := by rw [Compilation.after, hc']
  have hnode : (foreign.after (errorNode ⟨0, ⟨0⟩⟩ ⟨16⟩ {})).nodes[1]? =
      some (.error {} (some ⟨16⟩) (.reference (foreignReference ""))) := by
    decide +kernel
  have hsame : (foreign.after (errorNode ⟨0, ⟨0⟩⟩ ⟨16⟩ {})).types.find ⟨14⟩ =
        .ok (appRecord ⟨1⟩ []) ∧
      (foreign.after (errorNode ⟨0, ⟨0⟩⟩ ⟨16⟩ {})).symbols.find ⟨1⟩ = .ok foreignDetail := by
    decide +kernel
  rw [hafter] at hnode hsame
  exact ⟨by decide +kernel, c', foreignReference "", foreignDetail, .detail rfl hc' hnode,
    foreignReference_refersTo "" hsame, by decide, .first rfl, by decide⟩

/-- The other record refers to it by its qualified name, when it becomes its readonly variant. -/
theorem foreign_qualified : ∃ c' r, EmitsReference foreign c' importing r .source ∧
    r.name.name = "Detail" ∧ r.qualifier.name = "lib" := by
  let q : Population := { target := ⟨15⟩, source := ⟨14⟩, package := ⟨0⟩, immutable := true }
  have hrun : answers? (buildFields ⟨0, ⟨0⟩⟩ none 0 q 0 foreign) = some () := by decide +kernel
  obtain ⟨c', hc'⟩ := answers?_eq_some hrun
  have hafter : foreign.after (buildFields ⟨0, ⟨0⟩⟩ none 0 q 0) = c' := by
    rw [Compilation.after, hc']
  have hnode : (foreign.after (buildFields ⟨0, ⟨0⟩⟩ none 0 q 0)).nodes[0]? =
      some (.record { references := [foreignReference "lib"] }) := by
    decide +kernel
  have hsame : (foreign.after (buildFields ⟨0, ⟨0⟩⟩ none 0 q 0)).types.find ⟨14⟩ =
        .ok (appRecord ⟨1⟩ []) ∧
      (foreign.after (buildFields ⟨0, ⟨0⟩⟩ none 0 q 0)).symbols.find ⟨1⟩ = .ok foreignDetail := by
    decide +kernel
  rw [hafter] at hnode hsame
  have hemits : EmitsReference foreign c' importing (foreignReference "lib") .source :=
    .populated rfl hc' ⟨rfl, rfl⟩ ⟨hnode, rfl⟩ (List.mem_singleton_self _)
  obtain ⟨hname, hiff⟩ := emitsReference_qualified_iff foreign c' importing _ .source
    foreignDetail "lib" hemits (foreignReference_refersTo "lib" hsame) (by decide) (.first rfl)
  exact ⟨c', _, hemits, hname, hiff.2 (.inl rfl)⟩

end Compilation

end StructuralTypes
