import StructuralTypes.Proofs.Range.Run

/-!
# Details that are bound later

The detail of an error type may be a map. Such a map has no name to refer to it by, so the node of
the type refers to a placeholder instead and is deferred, until the detail is bound to a record.
`mapErrorNode` is the node with any reference in that place: with the placeholder it is what the
node of the type is to begin with, and binding replaces the placeholder and nothing else.

Results:
* `deferred_mapErrorNode`, `bindDetail?_mapErrorNode`: such a node is deferred, and its detail can
  be bound, exactly if the reference is to a placeholder.
* **`deferred_of_bindDetail?`**: no other node has a detail to bind either, unless it is deferred.
* **`errorNode_bindDetail`**: the two phases.
-/

namespace StructuralTypes

/-! ## Nodes -/

section Nodes

variable {b : Extent} {S : SymbolTable} {T : TypeTable} {d : TypeId} {name : String}

theorem isPlaceholder_of_find {r : TypeReference} {e : TypeEntry} (hr : r.ty = some d)
    (he : T.find d = .ok e) : r.isPlaceholder T = .ok (decide (e.ty = .placeholder)) := by
  unfold TypeReference.isPlaceholder
  rw [hr]
  dsimp only
  rw [he]
  rfl

/-- In closed tables it is known of every reference whether it is to a placeholder. -/
theorem exists_isPlaceholder (h : ClosedTables b S T) {r : TypeReference} (hr : Within b r) :
    ∃ waits, r.isPlaceholder T = .ok waits := by
  cases hty : r.ty with
  | none =>
    unfold TypeReference.isPlaceholder
    rw [hty]
    exact ⟨false, rfl⟩
  | some d =>
    obtain ⟨e, he, -⟩ := h.exists_type (within_some.1 (hty ▸ within_typeReference.1 hr))
    exact ⟨_, isPlaceholder_of_find hty he⟩

theorem exists_anyM {α : Type} {f : α → Except Stop Bool} {l : List α}
    (h : ∀ a ∈ l, ∃ waits, f a = .ok waits) : ∃ waits, l.anyM f = .ok waits := by
  induction l with
  | nil => exact ⟨false, rfl⟩
  | cons a l ih =>
    obtain ⟨⟨waits, hwaits⟩, hrest⟩ := List.forall_mem_cons.1 h
    rw [List.anyM_cons, hwaits]
    cases waits with
    | true => exact ⟨true, rfl⟩
    | false => exact ih hrest

/-- **In closed tables it is known of every node whether it waits for a type.** -/
theorem exists_deferred (h : ClosedTables b S T) {n : TypeNode} (hn : Within b n) :
    ∃ waits, n.deferred T = .ok waits := by
  have hreferences : ∀ node : StructureNode, Within b node →
      ∃ waits, node.references.anyM (·.isPlaceholder T) = .ok waits := fun node hnode =>
    exists_anyM fun r hr =>
      exists_isPlaceholder h (within_list.1 (within_structureNode.1 hnode).2.2.2.1 r hr)
  induction n with
  | record node => exact hreferences node hn
  | object node => exact hreferences node hn
  | plainError span ty => exact ⟨false, rfl⟩
  | error span ty detail ih => exact ih (within_errorNode.1 hn).2
  | reference r => exact exists_isPlaceholder h hn
  | constrained span base constraint ihBase ihConstraint =>
    obtain ⟨hbase, hconstraint⟩ := within_constrainedNode.1 hn
    obtain ⟨waits, hwaits⟩ := ihBase hbase
    rw [TypeNode.deferred, hwaits]
    cases waits with
    | true => exact ⟨true, rfl⟩
    | false => exact ihConstraint hconstraint
  | mapConstructor span => exact ⟨false, rfl⟩

/-- A detail is bound only in an error node, whose detail is a type constructor applied to a
reference to a placeholder. -/
theorem exists_of_bindDetail? {n after : TypeNode} (h : n.bindDetail? T d name = .ok (some after)) :
    ∃ span errorTy detailSpan base r,
      n = .error span errorTy (.constrained detailSpan base (.reference r)) ∧
        r.isPlaceholder T = .ok true := by
  unfold TypeNode.bindDetail? at h
  split at h
  · rename_i span errorTy detailSpan base r
    refine ⟨span, errorTy, detailSpan, base, r, rfl, ?_⟩
    cases hr : r.isPlaceholder T with
    | error e => simp [hr, bind, Except.bind] at h
    | ok waits =>
      cases waits with
      | true => rfl
      | false => simp [hr, bind, Except.bind, pure, Except.pure] at h
  · cases h

/-- **Only a deferred node has a detail to bind.** -/
theorem deferred_of_bindDetail? (h : ClosedTables b S T) {n after : TypeNode} (hn : Within b n)
    (hafter : n.bindDetail? T d name = .ok (some after)) : n.deferred T = .ok true := by
  obtain ⟨span, errorTy, detailSpan, base, r, rfl, hr⟩ := exists_of_bindDetail? hafter
  obtain ⟨waits, hwaits⟩ :=
    exists_deferred h (within_constrainedNode.1 (within_errorNode.1 hn).2).1
  rw [TypeNode.deferred, TypeNode.deferred, hwaits]
  cases waits with
  | true => rfl
  | false => exact hr

/-- In closed tables it is known of every node whether it has a detail to bind. -/
theorem exists_bindDetail? (h : ClosedTables b S T) {n : TypeNode} (hn : Within b n) (d : TypeId)
    (name : String) : ∃ after, n.bindDetail? T d name = .ok after := by
  unfold TypeNode.bindDetail?
  split
  · obtain ⟨waits, hwaits⟩ :=
      exists_isPlaceholder h (within_constrainedNode.1 (within_errorNode.1 hn).2).2
    rw [hwaits]
    cases waits <;> exact ⟨_, rfl⟩
  · exact ⟨none, rfl⟩

/-- The node of an error type whose detail is a map of what `name` refers to. -/
def mapErrorNode (ty : TypeId) (span : Span) (name : String) (d : TypeId) : TypeNode :=
  .error span (some ty) <| .constrained span (.mapConstructor span) <| .reference
    { qualifier := .unnamed span, name := ⟨name, span⟩, ty := some d, span }

/-- The node is deferred exactly if the reference is to a placeholder. -/
theorem deferred_mapErrorNode {e : TypeEntry} (he : T.find d = .ok e) (ty : TypeId) (span : Span)
    (name : String) :
    (mapErrorNode ty span name d).deferred T = .ok (decide (e.ty = .placeholder)) := by
  unfold mapErrorNode
  simp only [TypeNode.deferred, pure, Except.pure, bind, Except.bind, Bool.false_eq_true, if_false]
  exact isPlaceholder_of_find rfl he

/-- The detail of the node can be bound exactly if the reference is to a placeholder. -/
theorem bindDetail?_mapErrorNode {e : TypeEntry} (he : T.find d = .ok e) (ty : TypeId)
    (span : Span) (name : String) (d' : TypeId) (name' : String) :
    (mapErrorNode ty span name d).bindDetail? T d' name' =
      .ok (if e.ty = .placeholder then some (mapErrorNode ty span name' d') else none) := by
  unfold mapErrorNode TypeNode.bindDetail?
  dsimp only
  rw [isPlaceholder_of_find rfl he]
  by_cases hp : e.ty = .placeholder <;> simp [hp, bind, Except.bind, pure, Except.pure]

end Nodes

/-! ## Error types with a map detail -/

/-- The type stands for an error type whose detail stands for a map. -/
def TypeTable.StandsForMapError (T : TypeTable) (ty : TypeId) : Prop :=
  ∃ base e detail m e' constraint, T.implied ty = .ok base ∧ T.find base = .ok e ∧
    e.ty = .error detail ∧ T.implied detail = .ok m ∧ T.find m = .ok e' ∧ e'.ty = .map constraint

namespace Synth

/-- The node of such a type refers to the placeholder, and making it changes nothing. -/
theorem errorNode_of_standsForMapError {s : Session} {ty : TypeId}
    (h : s.types.StandsForMapError ty) (span : Span) :
    errorNode ty span s = .ok (mapErrorNode ty span errorDetailName Builtin.errorDetail) s := by
  obtain ⟨base, e, detail, m, e', constraint, hbase, he, herror, hm, he', hmap⟩ := h
  have hdetail : errorDetail ty s = .ok m s := by
    refine bind_eq_ok_iff.2 ⟨base, s, reading_eq_ok_iff.2 ⟨hbase, rfl⟩, ?_⟩
    refine bind_eq_ok_iff.2 ⟨e, s, entry_eq he, ?_⟩
    rw [herror]
    exact reading_eq_ok_iff.2 ⟨hm, rfl⟩
  refine bind_eq_ok_iff.2 ⟨m, s, hdetail, bind_eq_ok_iff.2 ⟨e', s, entry_eq he', ?_⟩⟩
  rw [hmap]
  rfl

end Synth

namespace Compilation

variable {c c' : Compilation} {position : Nat}

/-- In `c'`, a node has been stored, and all else is as in `c`. -/
structure Stores (c : Compilation) (n : TypeNode) (c' : Compilation) : Prop where
  /-- The symbols and scopes. -/
  symbols : c'.symbols = c.symbols
  /-- The types. -/
  types : c'.types = c.types
  /-- The counters for made-up names. -/
  names : c'.names = c.names
  /-- The packages. -/
  packages : c'.packages = c.packages
  /-- What is remembered of clones, in every slot. -/
  memo : c'.memo = c.memo
  /-- The unfinished clones, in every slot. -/
  pending : c'.pending = c.pending
  /-- The settings. -/
  settings : c'.settings = c.settings
  /-- The node stands after those that were there. -/
  nodes : c'.nodes = c.nodes.push n

/-- The node of such a type is stored, and nothing else is changed. -/
theorem errorNode_of_standsForMapError {env : Environment} {p : Package} {ty : TypeId}
    (hp : c.packages[env.package]? = some p) (h : c.types.StandsForMapError ty) (span : Span) :
    ∃ c', errorNode env ty span c = .ok c.nodes.size c' ∧
      c.Stores (mapErrorNode ty span errorDetailName Builtin.errorDetail) c' := by
  have hslot : ∀ (maps : OrderedMap Nat CloneMap) (slot : Nat),
      ((maps.insert 0 ((maps.get? 0).getD ∅)).get? slot).getD ∅ = (maps.get? slot).getD ∅ := by
    intro maps slot
    rw [OrderedMap.get?_insert]
    split
    · rename_i hslot
      rw [hslot]
      rfl
    · rfl
  have hends : Ends (errorNode env ty span) c
      (fun position c' => position = c.nodes.size ∧
        c.Stores (mapErrorNode ty span errorDetailName Builtin.errorDetail) c')
      fun _ _ => False := by
    refine ends_bind.2 ((ends_synthesize hp).2 ?_)
    refine (ends_of_ok (Synth.errorNode_of_standsForMapError h span)).2 ⟨rfl, ?_⟩
    exact { symbols := rfl, types := rfl, names := rfl
            packages := @packages_keep c env {} p (c.session p {}) hp rfl
            memo := funext (hslot c.memos), pending := funext (hslot c.pendings)
            settings := rfl, nodes := rfl }
  cases hact : errorNode env ty span c with
  | ok position c' =>
    obtain ⟨rfl, hstores⟩ := (ends_iff.1 hends).1 position c' hact
    exact ⟨c', rfl, hstores⟩
  | error e c' => exact ((ends_iff.1 hends).2 e c' hact).elim

/-- How the detail of a stored node is bound. -/
theorem bindDetail_eq {n : TypeNode} (hn : c.nodes[position]? = some n) (d : TypeId)
    (name : String) :
    bindDetail position d name c =
      match n.bindDetail? c.types d name with
      | .ok (some after) => .ok true { c with nodes := c.nodes.setIfInBounds position after }
      | .ok none => .ok false c
      | .error e => .error e c := by
  have hnode : node position c = .ok n c := by
    unfold node reading
    dsimp only
    rw [hn]
  unfold bindDetail
  simp only [bind, EStateM.bind, hnode]
  unfold reading
  dsimp only
  rcases n.bindDetail? c.types d name with e | _ | after <;> rfl

/-- The detail of a stored node of that form is bound exactly if the reference is to a
placeholder. -/
theorem bindDetail_mapErrorNode {ty d : TypeId} {span : Span} {name : String} {e : TypeEntry}
    (hn : c.nodes[position]? = some (mapErrorNode ty span name d)) (he : c.types.find d = .ok e)
    (d' : TypeId) (name' : String) :
    bindDetail position d' name' c =
      if e.ty = .placeholder then
        .ok true { c with nodes := c.nodes.setIfInBounds position (mapErrorNode ty span name' d') }
      else .ok false c := by
  rw [bindDetail_eq hn, bindDetail?_mapErrorNode he]
  by_cases hp : e.ty = .placeholder
  · simp only [if_pos hp]
  · simp only [if_neg hp]

/-- **The detail of an error type is bound in two phases.** The node of an error type with a map
detail is stored, which changes nothing else, and is deferred. Any type but a placeholder can then
be bound to its detail, once: this replaces what the map refers to, and leaves nothing to bind. In
no stored node at all is a detail bound unless the node is deferred. -/
theorem errorNode_bindDetail (c : Compilation) (env : Environment) (ty : TypeId) (span : Span)
    (hclosed : c.Closed) (hbuiltin : TypeTable.initial.Grows c.types)
    (hpackage : (Position.package env.package).Occupied c) (hty : c.types.StandsForMapError ty) :
    (∃ c', errorNode env ty span c = .ok c.nodes.size c' ∧
      c.Stores (mapErrorNode ty span errorDetailName Builtin.errorDetail) c' ∧
      (mapErrorNode ty span errorDetailName Builtin.errorDetail).deferred c'.types = .ok true ∧
      ∀ d name e, c'.types.find d = .ok e → e.ty ≠ .placeholder →
        ∃ c'', bindDetail c.nodes.size d name c' = .ok true c'' ∧
          c'' = { c' with nodes := c.nodes.push (mapErrorNode ty span name d) } ∧
          (mapErrorNode ty span name d).deferred c''.types = .ok false ∧
          ∀ d' name', bindDetail c.nodes.size d' name' c'' = .ok false c'') ∧
    ∀ position n, c.nodes[position]? = some n → ∀ d name,
      (∃ c', bindDetail position d name c = .ok true c' ∧ n.deferred c.types = .ok true) ∨
        bindDetail position d name c = .ok false c := by
  constructor
  · obtain ⟨p, hp⟩ := Option.isSome_iff_exists.1 hpackage
    obtain ⟨c', hc', hstores⟩ := errorNode_of_standsForMapError hp hty span
    have hplaceholder : c'.types.find Builtin.errorDetail = .ok { ty := .placeholder } := by
      rw [hstores.types]
      exact hbuiltin.find rfl
    refine ⟨c', hc', hstores, deferred_mapErrorNode hplaceholder ty span _, ?_⟩
    intro d name e he hne
    have hnode : c'.nodes[c.nodes.size]? =
        some (mapErrorNode ty span errorDetailName Builtin.errorDetail) := by
      rw [hstores.nodes, Array.getElem?_push_size]
    have hnodes : c'.nodes.setIfInBounds c.nodes.size (mapErrorNode ty span name d) =
        c.nodes.push (mapErrorNode ty span name d) := by
      rw [hstores.nodes, Grows.setIfInBounds_push]
    have hbound := bindDetail_mapErrorNode hnode hplaceholder d name
    rw [if_pos rfl, hnodes] at hbound
    refine ⟨_, hbound, rfl, ?_, fun d' name' => ?_⟩
    · rw [deferred_mapErrorNode (T := c'.types) he, decide_eq_false hne]
    · have hnode' : ({ c' with nodes := c.nodes.push (mapErrorNode ty span name d) } :
          Compilation).nodes[c.nodes.size]? = some (mapErrorNode ty span name d) :=
        Array.getElem?_push_size
      exact (bindDetail_mapErrorNode hnode' he d' name').trans (if_neg hne)
  · intro position n hn d name
    have hin := hclosed.node hn
    obtain ⟨o, ho⟩ := exists_bindDetail? hclosed.tables hin d name
    have hbound := bindDetail_eq hn d name
    rw [ho] at hbound
    cases o with
    | none => exact .inr hbound
    | some after => exact .inl ⟨_, hbound, deferred_of_bindDetail? hclosed.tables hin ho⟩

/-- An error type whose detail is a map, both behind references, and a record. -/
def mapErrors : Compilation :=
  app [("Detail", ⟨18⟩)] [{ ty := .ref ⟨15⟩ }, { ty := .error ⟨16⟩ }, { ty := .ref ⟨17⟩ },
    { ty := .map Builtin.string }, appRecord ⟨1⟩ [("message", Builtin.string)]]

theorem mapErrors_bindDetail :
    ∃ c' c'', errorNode ⟨0, ⟨0⟩⟩ ⟨14⟩ {} mapErrors = .ok 0 c' ∧
      bindDetail 0 ⟨18⟩ "Detail" c' = .ok true c'' ∧
        ∀ d name, bindDetail 0 d name c'' = .ok false c'' := by
  have hbuiltin : TypeTable.initial.Grows mapErrors.types := by
    show _ <+: (TypeTable.initial.entries ++ _).toList
    rw [Array.toList_append]
    exact List.prefix_append _ _
  obtain ⟨⟨c', hc', hstores, -, hbind⟩, -⟩ := errorNode_bindDetail mapErrors ⟨0, ⟨0⟩⟩ ⟨14⟩ {}
    (by decide +kernel) hbuiltin (by decide +kernel)
    ⟨⟨15⟩, _, ⟨16⟩, ⟨17⟩, _, Builtin.string, rfl, rfl, rfl, rfl, rfl, rfl⟩
  obtain ⟨c'', hbound, -, -, hagain⟩ :=
    hbind ⟨18⟩ "Detail" (appRecord ⟨1⟩ [("message", Builtin.string)]) (by rw [hstores.types]; rfl)
      (by decide)
  exact ⟨c', c'', hc', hbound, hagain⟩

end Compilation

end StructuralTypes
