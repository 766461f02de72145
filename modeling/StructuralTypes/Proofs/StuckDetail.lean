import StructuralTypes.Proofs.Deferral
import StructuralTypes.Proofs.Faithful.Qualification

/-!
# Details that stay unbound

The node of an error type is one of two: that of a map detail, which waits in a fixed place for the
detail to be bound, and one that refers to the detail by name. The second kind waits, too, if the
detail itself is a placeholder, as that of an intersected error is. But a detail is only ever bound
in the first kind.

Results:
* `Synth.errorNode_eq_ok`: the two kinds of nodes.
* `deferred_namedErrorNode`, `bindDetail?_namedErrorNode`: the second kind waits for placeholders,
  and has no detail to bind.
* **`errorNode_bindable_iff`**: a deferred node can be bound exactly if its error's detail is no
  placeholder.
-/

namespace StructuralTypes

variable {T : TypeTable} {ty detail : TypeId} {span : Span} {name : String} {e : TypeEntry}

/-! ## The detail of an error type -/

namespace TypeTable

/-- The type stands for an error type whose detail stands for `detail`. -/
def HasDetail (T : TypeTable) (ty detail : TypeId) : Prop :=
  ∃ base e stated, T.implied ty = .ok base ∧ T.find base = .ok e ∧ e.ty = .error stated ∧
    T.implied stated = .ok detail

/-- An error type has one detail. -/
theorem HasDetail.unique {detail' : TypeId} (h : T.HasDetail ty detail)
    (h' : T.HasDetail ty detail') : detail = detail' := by
  obtain ⟨base, e, stated, hbase, he, hty, hdetail⟩ := h
  obtain ⟨base', e', stated', hbase', he', hty', hdetail'⟩ := h'
  obtain rfl := Except.ok.inj (hbase.symm.trans hbase')
  obtain rfl := Except.ok.inj (he.symm.trans he')
  obtain rfl := Ty.error.inj (hty.symm.trans hty')
  exact Except.ok.inj (hdetail.symm.trans hdetail')

/-- The type stands for an error type whose detail is yet to be supplied. -/
def AwaitsDetail (T : TypeTable) (ty : TypeId) : Prop :=
  ∃ detail e, T.HasDetail ty detail ∧ T.find detail = .ok e ∧ e.ty = .placeholder

theorem HasDetail.awaitsDetail_iff (h : T.HasDetail ty detail) (he : T.find detail = .ok e) :
    T.AwaitsDetail ty ↔ e.ty = .placeholder := by
  constructor
  · rintro ⟨detail', e', h', he', hty⟩
    obtain rfl := h.unique h'
    rwa [Except.ok.inj (he.symm.trans he')]
  · exact fun hty => ⟨detail, e, h, he, hty⟩

end TypeTable

/-! ## Nodes that refer to the detail -/

/-- The node of an error type that refers to its detail by name. -/
def namedErrorNode (ty : TypeId) (span : Span) (name : String) (detail : TypeId) : TypeNode :=
  .error span (some ty) <| .reference
    { qualifier := .unnamed span, name := ⟨name, span⟩, ty := some detail, span }

/-- The node is deferred exactly if the detail is a placeholder. -/
theorem deferred_namedErrorNode (he : T.find detail = .ok e) (ty : TypeId) (span : Span)
    (name : String) :
    (namedErrorNode ty span name detail).deferred T = .ok (decide (e.ty = .placeholder)) := by
  unfold namedErrorNode
  simp only [TypeNode.deferred]
  exact isPlaceholder_of_find rfl he

/-- The node never has a detail to bind. -/
theorem bindDetail?_namedErrorNode (T : TypeTable) (ty : TypeId) (span : Span) (name : String)
    (detail d : TypeId) (name' : String) :
    (namedErrorNode ty span name detail).bindDetail? T d name' = .ok none := rfl

/-- The node of an error type with that detail, whose entry is `e`. -/
inductive ErrorNodeKind (ty : TypeId) (span : Span) (detail : TypeId) (e : TypeEntry) :
    TypeNode → Prop
  /-- It waits for a map detail to be bound. -/
  | map {constraint : TypeId} (hty : e.ty = .map constraint) : ErrorNodeKind ty span detail e
      (mapErrorNode ty span errorDetailName Builtin.errorDetail)
  /-- It refers to any other detail by name. -/
  | named (hty : ∀ constraint, e.ty ≠ .map constraint) (name : String) :
    ErrorNodeKind ty span detail e (namedErrorNode ty span name detail)

namespace Synth

variable {s : Session}

theorem ends_errorDetail (ty : TypeId) :
    Ends (errorDetail ty) s (fun detail t => t = s ∧ s.types.HasDetail ty detail)
      fun _ _ => True := by
  unfold errorDetail
  refine ends_bind.2 (ends_reading.2 ⟨fun base hbase => ?_, fun _ _ => trivial⟩)
  refine ends_bind.2 (ends_reading.2 ⟨fun e he => ?_, fun _ _ => trivial⟩)
  split
  · rename_i stated hty
    exact ends_reading.2
      ⟨fun detail hdetail => ⟨rfl, base, e, stated, hbase, he, hty, hdetail⟩, fun _ _ => trivial⟩
  · exact trivial

/-- **The node of an error type waits for a map detail, or refers to any other detail by name.** -/
theorem ends_errorNode_kind (ty : TypeId) (span : Span) :
    Ends (errorNode ty span) s
      (fun n t => t.types = s.types ∧ ∃ detail e, s.types.HasDetail ty detail ∧
        s.types.find detail = .ok e ∧ ErrorNodeKind ty span detail e n)
      fun _ _ => True := by
  unfold errorNode
  refine ends_bind.2 ((ends_errorDetail ty).imp ?_ fun _ _ _ => trivial)
  rintro detail _ ⟨rfl, hdetail⟩
  refine ends_bind.2 (ends_reading.2 ⟨fun e he => ?_, fun _ _ => trivial⟩)
  split
  · rename_i constraint hty
    exact ends_pure.2 ⟨rfl, detail, e, hdetail, he, .map hty⟩
  · rename_i hty
    refine ends_bind.2 ((ends_errorDetailReferenceName e).imp ?_ fun _ _ _ => trivial)
    rintro name t ⟨-, htypes, -⟩
    exact ends_pure.2 ⟨htypes, detail, e, hdetail, he, .named hty name⟩

end Synth

namespace Compilation

variable {c c' : Compilation} {env : Environment} {position : Nat} {n : TypeNode}

/-- The node of an error type is stored behind the others, and the types stay as they are. -/
theorem errorNode_eq_ok (h : errorNode env ty span c = .ok position c') :
    c'.types = c.types ∧ ∃ detail e n, c.types.HasDetail ty detail ∧ c.types.find detail = .ok e ∧
      c'.nodes[position]? = some n ∧ ErrorNodeKind ty span detail e n := by
  obtain ⟨n, _, hrun, hstored⟩ := bind_eq_ok_iff.1 h
  cases hstored
  obtain ⟨_, t, -, hnode, rfl⟩ := synthesize_eq_ok_iff.1 hrun
  obtain ⟨htypes, detail, e, hdetail, he, hkind⟩ :=
    (ends_of_ok hnode).1 (Synth.ends_errorNode_kind ty span)
  exact ⟨htypes, detail, e, n, hdetail, he, Array.getElem?_push_size, hkind⟩

/-- Once `d` is bound to its detail, under `name`, the node is no longer deferred. -/
def Binds (c : Compilation) (position : Nat) (d : TypeId) (name : String) : Prop :=
  ∃ c' n, bindDetail position d name c = .ok true c' ∧ c'.nodes[position]? = some n ∧
    n.deferred c'.types = .ok false

/-- A map detail can be bound to any type but a placeholder. -/
theorem binds_mapErrorNode {d d' : TypeId} {e e' : TypeEntry}
    (hn : c.nodes[position]? = some (mapErrorNode ty span name d)) (he : c.types.find d = .ok e)
    (hty : e.ty = .placeholder) (he' : c.types.find d' = .ok e') (hne : e'.ty ≠ .placeholder)
    (name' : String) : c.Binds position d' name' := by
  have hlt := (Array.getElem?_eq_some_iff.1 hn).1
  refine ⟨_, mapErrorNode ty span name' d',
    (bindDetail_mapErrorNode hn he d' name').trans (if_pos hty), ?_, ?_⟩
  · exact Array.getElem?_setIfInBounds_self_of_lt hlt
  · have hdeferred := deferred_mapErrorNode he' ty span name'
    rwa [decide_eq_false hne] at hdeferred

/-- A detail that is referred to by name is not bound to anything. -/
theorem bindDetail_namedErrorNode
    (hn : c.nodes[position]? = some (namedErrorNode ty span name detail)) (d : TypeId)
    (name' : String) : bindDetail position d name' c = .ok false c := by
  rw [bindDetail_eq hn, bindDetail?_namedErrorNode]

/-- **The node of an error type whose detail is a placeholder is stuck**: it is deferred, and no
detail is ever bound in it. -/
theorem stuck_of_awaitsDetail (h : errorNode env ty span c = .ok position c')
    (hawaits : c.types.AwaitsDetail ty) :
    ∃ n, c'.nodes[position]? = some n ∧ n.deferred c'.types = .ok true ∧
      ∀ d name, bindDetail position d name c' = .ok false c' := by
  obtain ⟨htypes, detail, e, n, hdetail, he, hn, hkind⟩ := errorNode_eq_ok h
  have hty := (hdetail.awaitsDetail_iff he).1 hawaits
  cases hkind with
  | map hmap => cases hty.symm.trans hmap
  | named _ name =>
    refine ⟨_, hn, ?_, bindDetail_namedErrorNode hn⟩
    rw [htypes, deferred_namedErrorNode he, decide_eq_true hty]

/-- The node of any other error type is not deferred, or any type but a placeholder can be bound in
it. -/
theorem binds_of_not_awaitsDetail (h : errorNode env ty span c = .ok position c')
    (hbuiltin : TypeTable.initial.Grows c.types) (hawaits : ¬c.types.AwaitsDetail ty) {n : TypeNode}
    (hn : c'.nodes[position]? = some n) (hdeferred : n.deferred c'.types = .ok true) {d : TypeId}
    {e : TypeEntry} (hd : c'.types.find d = .ok e) (hne : e.ty ≠ .placeholder) (name : String) :
    c'.Binds position d name := by
  obtain ⟨htypes, detail, e', n', hdetail, he', hn', hkind⟩ := errorNode_eq_ok h
  obtain rfl := Option.some.inj (hn.symm.trans hn')
  cases hkind with
  | map _ =>
    have hplaceholder : c'.types.find Builtin.errorDetail = .ok { ty := .placeholder } := by
      rw [htypes]
      exact hbuiltin.find rfl
    exact binds_mapErrorNode hn hplaceholder rfl hd hne name
  | named _ name' =>
    rw [htypes, deferred_namedErrorNode he'] at hdeferred
    exact absurd ((hdetail.awaitsDetail_iff he').2 (of_decide_eq_true (Except.ok.inj hdeferred)))
      hawaits

/-- **A deferred node of an error type can be bound exactly if the detail of the type is no
placeholder.** With a placeholder for a detail, the node is deferred for good: it says that there
is nothing to bind. -/
theorem errorNode_bindable_iff (hbuiltin : TypeTable.initial.Grows c.types)
    (h : errorNode env ty span c = .ok position c') {d : TypeId} {e : TypeEntry}
    (hd : c'.types.find d = .ok e) (hne : e.ty ≠ .placeholder) (name : String) :
    ((∀ n, c'.nodes[position]? = some n → n.deferred c'.types = .ok true →
        c'.Binds position d name) ↔ ¬c.types.AwaitsDetail ty) ∧
      (c.types.AwaitsDetail ty → ∃ n, c'.nodes[position]? = some n ∧
        n.deferred c'.types = .ok true ∧
        ∀ d name, bindDetail position d name c' = .ok false c') := by
  refine ⟨⟨fun hbinds hawaits => ?_, fun hawaits n hn hdeferred => ?_⟩, stuck_of_awaitsDetail h⟩
  · obtain ⟨n, hn, hdeferred, hstuck⟩ := stuck_of_awaitsDetail h hawaits
    obtain ⟨_, _, hbound, -⟩ := hbinds n hn hdeferred
    cases (hstuck d name).symm.trans hbound
  · exact binds_of_not_awaitsDetail h hbuiltin hawaits hn hdeferred hd hne name

/-- The package `app` starts with the builtin types. -/
theorem grows_app (named : List (String × TypeId)) (own : List TypeEntry) :
    TypeTable.initial.Grows (app named own).types := by
  show _ <+: (TypeTable.initial.entries ++ own.toArray).toList
  rw [Array.toList_append]
  exact List.prefix_append _ _

/-- The detail of an error type is a map behind references, and is bound to a record. -/
theorem mapErrors_bindable : ∃ c' e, errorNode ⟨0, ⟨0⟩⟩ ⟨14⟩ {} mapErrors = .ok 0 c' ∧
    c'.types.find ⟨18⟩ = .ok e ∧ e.ty ≠ .placeholder ∧
      ((∀ n, c'.nodes[0]? = some n → n.deferred c'.types = .ok true → c'.Binds 0 ⟨18⟩ "Detail") ↔
        ¬mapErrors.types.AwaitsDetail ⟨14⟩) := by
  have hrun : answers? (errorNode ⟨0, ⟨0⟩⟩ ⟨14⟩ {} mapErrors) = some 0 := by decide +kernel
  obtain ⟨c', hc'⟩ := answers?_eq_some hrun
  have hd : c'.types.find ⟨18⟩ = .ok (appRecord ⟨1⟩ [("message", Builtin.string)]) := by
    rw [(errorNode_eq_ok hc').1]
    rfl
  have hne : (appRecord ⟨1⟩ [("message", Builtin.string)]).ty ≠ .placeholder := by decide
  exact ⟨c', _, hc', hd, hne, (errorNode_bindable_iff (grows_app _ _) hc' hd hne "Detail").1⟩

/-- An intersected error, whose detail is yet to be supplied, and a record to supply. -/
def intersected : Compilation :=
  app [("Detail", ⟨15⟩)]
    [{ ty := .error Builtin.errorDetail }, appRecord ⟨1⟩ [("message", Builtin.string)]]

/-- Its node waits for the detail, but the record is not bound in it. -/
theorem intersected_stuck : intersected.Closed ∧ TypeTable.initial.Grows intersected.types ∧
    ∃ c' n e, errorNode ⟨0, ⟨0⟩⟩ ⟨14⟩ {} intersected = .ok 0 c' ∧ c'.nodes[0]? = some n ∧
      n.deferred c'.types = .ok true ∧ c'.types.find ⟨15⟩ = .ok e ∧ e.ty ≠ .placeholder ∧
        bindDetail 0 ⟨15⟩ "Detail" c' = .ok false c' := by
  have hrun : answers? (errorNode ⟨0, ⟨0⟩⟩ ⟨14⟩ {} intersected) = some 0 := by decide +kernel
  obtain ⟨c', hc'⟩ := answers?_eq_some hrun
  have hdetail : intersected.types.HasDetail ⟨14⟩ Builtin.errorDetail :=
    ⟨⟨14⟩, _, Builtin.errorDetail, rfl, rfl, rfl, rfl⟩
  obtain ⟨n, hn, hdeferred, hstuck⟩ := stuck_of_awaitsDetail hc' ⟨_, _, hdetail, rfl, rfl⟩
  have hd : c'.types.find ⟨15⟩ = .ok (appRecord ⟨1⟩ [("message", Builtin.string)]) := by
    rw [(errorNode_eq_ok hc').1]
    rfl
  exact ⟨by decide +kernel, grows_app _ _, c', n, _, hc', hn, hdeferred, hd, by decide,
    hstuck ⟨15⟩ "Detail"⟩

end Compilation

end StructuralTypes
