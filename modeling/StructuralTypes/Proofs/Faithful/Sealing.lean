import StructuralTypes.Proofs.Anonymous.Session
import StructuralTypes.Proofs.Faithful.Run

/-!
# Sealed nodes and sealed types

Whether a record is sealed is written down twice: in the table of types, and in each node that is
made for it. There are three ways in which the compilation makes such a node. The node of a readonly
clone is as sealed as its type. A node that is stored on request is never sealed, and that of an
anonymous record always is, whatever their types are.

Results:
* `Synth.ends_recordNode`: a node that is made on request is of a record, and it is not sealed.
* **`buildsRecord_sealed_iff`**: when a node and its type agree.
-/

namespace StructuralTypes

/-- How the node of a record comes about. -/
inductive RecordOrigin
  /-- It is stored on request. -/
  | requested
  /-- It is that of a readonly clone. -/
  | cloned
  /-- It is that of an anonymous record. -/
  | anonymous

/-- A node that comes about in this way is as sealed as its type, the record `r`. -/
def RecordOrigin.Agrees (r : RecordType) : RecordOrigin → Prop
  | requested => r.sealed = false
  | cloned => True
  | anonymous => r.sealed = true

namespace Synth

variable {s : Session}

/-- A node that is made on request is not sealed. -/
theorem ends_recordNode (ty : TypeId) (package : PackageId) (span : Span) :
    Ends (recordNode ty package span) s
      (fun node t => node.ty = some ty ∧ node.sealed = false ∧
        ∃ e r, t.types.find ty = .ok e ∧ e.ty = .record r)
      fun _ _ => True := by
  unfold recordNode requireRecord
  refine ends_bind.2 (ends_bind.2 (ends_reading.2 ⟨fun e he => ?_, fun _ _ => trivial⟩))
  cases hty : e.ty with
  | record r =>
    refine (keepsFaithful_fieldDeclarations ty package).ends_next (.refl s)
      (fun _ _ _ => trivial) ?_
    intro fields t ht
    -- the fields have got symbols, but the type is the same record
    obtain ⟨e', he', hsealed, -⟩ := ht.types ty e he
    rw [hty] at hsealed
    obtain ⟨r', hr', -⟩ := Ty.sealed?_eq_some_iff.1 hsealed
    exact ends_bind.2 (ends_reading.2 ⟨fun _ _ => ⟨rfl, rfl, e', r', he', hr'⟩, fun _ _ => trivial⟩)
  | _ => trivial

end Synth

namespace Compilation

variable {c c' : Compilation} {node : StructureNode}

/-- From `c` to `c'` the node of a record has come about. -/
inductive BuildsRecord (c c' : Compilation) (node : StructureNode) : RecordOrigin → Prop
  /-- It was requested, and is stored. -/
  | requested {ty : TypeId} {package : PackageId} {span : Span} {position : Nat}
      (stored : recordNode ty package span c = .ok position c')
      (found : c'.nodes[position]? = some (.record node)) : BuildsRecord c c' node .requested
  /-- It is in the definition of a clone. -/
  | cloned {command : Command} {p : Package} {d : TypeDefinition} (clones : command.Clones)
      (done : command.action c = .ok () c') (gained : c.Gains c' p d)
      (found : d.node = .record node) : BuildsRecord c c' node .cloned
  /-- It is in the definition of an anonymous record. -/
  | anonymous {env : Environment} {ty : TypeId} {span : Span} {n : Nat} {d : TypeDefinition}
      (registered : registerAnonymousRecord env ty span c = .ok n c')
      (gained : c'.definition? env.package .types n = some (.ofType d))
      (found : d.node = .record node) : BuildsRecord c c' node .anonymous

/-- The type of the node is the record `r`. -/
def IsOf (c : Compilation) (node : StructureNode) (r : RecordType) : Prop :=
  ∃ ty e, node.ty = some ty ∧ c.types.find ty = .ok e ∧ e.ty = .record r

/-- A node that was requested is not sealed. -/
theorem requested_unsealed {ty : TypeId} {package : PackageId} {span : Span} {position : Nat}
    (stored : recordNode ty package span c = .ok position c')
    (found : c'.nodes[position]? = some (.record node)) :
    ∃ r, c'.IsOf node r ∧ node.sealed = false := by
  have h : Ends (recordNode ty package span) c (fun position c' => ∀ node : StructureNode,
      c'.nodes[position]? = some (.record node) → ∃ r, c'.IsOf node r ∧ node.sealed = false)
      fun _ _ => True := by
    refine ends_bind.2 (ends_onTables.2
      ((Synth.ends_recordNode ty package span).imp ?_ fun _ _ _ => trivial))
    rintro made t ⟨hty, hsealed, e, r, he, hr⟩ node hnode
    have hmade : (c.nodes.push (.record made))[c.nodes.size]? = some (.record node) := hnode
    rw [Array.getElem?_push_size] at hmade
    obtain rfl := TypeNode.record.inj (Option.some.inj hmade)
    exact ⟨r, ⟨ty, e, hty, he, hr⟩, hsealed⟩
  exact (ends_of_ok stored).1 h node found

/-- The node of a clone is as sealed as the clone. -/
theorem cloned_sealed {command : Command} {p : Package} {d : TypeDefinition}
    (clones : command.Clones) (done : command.action c = .ok () c') (gained : c.Gains c' p d)
    (found : d.node = .record node) : ∃ r, c'.IsOf node r ∧ node.sealed = r.sealed := by
  obtain ⟨ty, e, hty, he, hsealed⟩ := (clones.gainsFaithful done p d gained).sealed node found
  obtain ⟨r, hr, heq⟩ := Ty.sealed?_eq_some_iff.1 hsealed
  exact ⟨r, ⟨ty, e, hty, he, hr⟩, heq.symm⟩

/-- The node of an anonymous record is sealed. -/
theorem anonymous_sealed {env : Environment} {ty : TypeId} {span : Span} {n : Nat}
    {d : TypeDefinition} (hc : c.Closed)
    (registered : registerAnonymousRecord env ty span c = .ok n c')
    (gained : c'.definition? env.package .types n = some (.ofType d))
    (found : d.node = .record node) : ∃ r, c'.IsOf node r ∧ node.sealed = true := by
  obtain ⟨package, t, hpackage, hrun, rfl⟩ := synthesize_eq_ok_iff.1 registered
  have h : Synth.Registers ⟨c.settings, env.scopeOwner⟩ ty span (c.session package {})
      (Synth.registerAnonymousRecord ⟨c.settings, env.scopeOwner⟩ ty span (c.session package {})) :=
    Synth.registers hc.tables (hc.package hpackage)
  rw [hrun] at h
  obtain - | - | - | @⟨e, r, y, named, outer, info, fields, m, u, finds, hkind, fills, builds⟩ := h
  -- the definition comes after those that were there
  obtain ⟨p', hp', hd⟩ := Option.bind_eq_some_iff.1 gained
  have hlt := (Array.getElem?_eq_some_iff.1 hpackage).1
  replace hp' := (Array.getElem?_setIfInBounds_self_of_lt hlt).symm.trans hp'
  obtain rfl := Option.some.inj hp'
  simp only [Package.definitions, List.map_append, List.map_cons, List.map_nil] at hd
  rw [← List.length_map Definition.ofType, List.getElem?_concat_length] at hd
  obtain rfl := Definition.ofType.inj (Option.some.inj hd)
  obtain rfl := TypeNode.record.inj found
  exact ⟨_, ⟨ty, _, rfl, TypeTable.find_set_self finds.entry _, rfl⟩, rfl⟩

/-- **A node and its type agree exactly if the type is as the way to the node presumes.** -/
theorem buildsRecord_sealed_iff (c c' : Compilation) (node : StructureNode)
    (origin : RecordOrigin) (hc : c.Closed) (h : BuildsRecord c c' node origin) :
    ∃ r, c'.IsOf node r ∧ (node.sealed = r.sealed ↔ origin.Agrees r) := by
  cases h with
  | requested stored found =>
    obtain ⟨r, hr, hsealed⟩ := requested_unsealed stored found
    exact ⟨r, hr, by rw [hsealed]; exact eq_comm⟩
  | cloned clones done gained found =>
    obtain ⟨r, hr, hsealed⟩ := cloned_sealed clones done gained found
    exact ⟨r, hr, iff_of_true hsealed trivial⟩
  | anonymous registered gained found =>
    obtain ⟨r, hr, hsealed⟩ := anonymous_sealed hc registered gained found
    exact ⟨r, hr, by rw [hsealed]; exact eq_comm⟩

/-- A record that is not sealed, and one that is. -/
def sealing : Compilation :=
  let r : RecordType := { fields := .ofList [("a", { name := "a", ty := Builtin.int })] }
  app [("R", ⟨14⟩), ("S", ⟨15⟩)] [{ ty := .record r, symbol := some ⟨1⟩ },
    { ty := .record { r with sealed := true }, symbol := some ⟨2⟩ }]

/-- The node that is stored for a record of these. -/
def sealingNode (ty : TypeId) (y : SymbolId) : StructureNode :=
  { ty := some ty, symbol := some y
    fields := [{ name := ⟨"a", {}⟩, ty := Builtin.int, symbol := ⟨3⟩, span := {} }] }

theorem sealing_stored (ty : TypeId) (y : SymbolId)
    (h : ty = ⟨14⟩ ∧ y = ⟨1⟩ ∨ ty = ⟨15⟩ ∧ y = ⟨2⟩) :
    ∃ c', BuildsRecord sealing c' (sealingNode ty y) .requested ∧
      c'.types.find ty = sealing.types.find ty := by
  have hrun : answers? (recordNode ty ⟨0⟩ {} sealing) = some 0 ∧
      (sealing.after (recordNode ty ⟨0⟩ {})).nodes[0]? = some (.record (sealingNode ty y)) ∧
      (sealing.after (recordNode ty ⟨0⟩ {})).types.find ty = sealing.types.find ty := by
    rcases h with ⟨rfl, rfl⟩ | ⟨rfl, rfl⟩ <;> decide +kernel
  obtain ⟨hanswer, hnode, hfind⟩ := hrun
  obtain ⟨c', hc'⟩ := answers?_eq_some hanswer
  have hafter : sealing.after (recordNode ty ⟨0⟩ {}) = c' := by rw [Compilation.after, hc']
  rw [hafter] at hnode hfind
  exact ⟨c', .requested hc' hnode, hfind⟩

/-- The node that is stored for the sealed one is not sealed. -/
theorem sealing_differs : sealing.Closed ∧ ∃ c' node r,
    BuildsRecord sealing c' node .requested ∧ c'.IsOf node r ∧ node.sealed ≠ r.sealed := by
  obtain ⟨c', hbuilds, hfind⟩ := sealing_stored ⟨15⟩ ⟨2⟩ (.inr ⟨rfl, rfl⟩)
  exact ⟨by decide +kernel, c', _, _, hbuilds, ⟨⟨15⟩, _, rfl, hfind, rfl⟩, by decide⟩

/-- The one for the other agrees with it. -/
theorem sealing_agrees : ∃ c' node r,
    BuildsRecord sealing c' node .requested ∧ c'.IsOf node r ∧ node.sealed = r.sealed := by
  obtain ⟨c', hbuilds, hfind⟩ := sealing_stored ⟨14⟩ ⟨1⟩ (.inl ⟨rfl, rfl⟩)
  obtain ⟨r, ⟨ty, e, hty, he, hr⟩, hiff⟩ :=
    buildsRecord_sealed_iff sealing c' _ .requested (by decide +kernel) hbuilds
  obtain rfl := Option.some.inj hty
  have hopen : r.sealed = false := by
    rw [hfind] at he
    cases he
    cases hr
    rfl
  exact ⟨c', _, r, hbuilds, ⟨_, e, rfl, he, hr⟩, hiff.2 hopen⟩

end Compilation

end StructuralTypes
