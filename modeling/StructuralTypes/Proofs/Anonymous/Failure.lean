import StructuralTypes.Proofs.Anonymous.Session

/-!
# Anonymous records that cannot be registered

The registration of an anonymous record looks the record up, its symbol and the owner of the scope,
and if one of them is missing, nothing has been done yet. Then the symbol of the record starts over.
What is found out later comes too late: that the symbol is not that of a named type, or that two
fields have one name. By then the symbol has another scope, in which the names of the fields are
missing or bound to other symbols, and the old one is out of reach.

Results:
* **`record_kept_iff`**: a failure leaves the record alone exactly if it shows before that.
* `doubled_reopened`: a failure that does not.
-/

namespace StructuralTypes

namespace Compilation

variable {c c' : Compilation} {env : Environment} {ty : TypeId} {span : Span} {x : Stop}

/-- The record at `ty` is in `c'` as it is in `c`: the type, the symbol with the names in its scope,
and the definitions of all packages. -/
structure RecordKept (c c' : Compilation) (ty : TypeId) : Prop where
  /-- The type is the same. -/
  entry : c'.types.find ty = c.types.find ty
  /-- So is its symbol. -/
  symbol : ∀ e y, c.types.find ty = .ok e → e.symbol = some y →
    c'.symbols.find y = c.symbols.find y
  /-- So are the names in the scope of that. -/
  names : ∀ e y, c.types.find ty = .ok e → e.symbol = some y →
    c'.symbols.bindings? y = c.symbols.bindings? y
  /-- So are the packages. -/
  packages : c'.packages = c.packages

/-- From `c` to `c'`, symbols and scopes have been added, and only the symbol of the type may have
been changed. -/
structure ChangesOnlySymbolOf (c c' : Compilation) (ty : TypeId) : Prop where
  /-- Other symbols are as they were. -/
  symbols : ∀ y a, c.symbols.find y = .ok a →
    (∀ e, c.types.find ty = .ok e → e.symbol ≠ some y) → c'.symbols.find y = .ok a
  /-- No symbol has been removed. -/
  count : c.symbols.symbols.size ≤ c'.symbols.symbols.size
  /-- The scopes are as they were. -/
  scopes : Grows c.symbols.scopes c'.symbols.scopes
  /-- So are the types. -/
  types : c'.types = c.types
  /-- So are the packages. -/
  packages : c'.packages = c.packages
  /-- So is everything else. -/
  aside : c'.names = c.names ∧ c'.nodes = c.nodes ∧ c'.settings = c.settings ∧
    c'.memo = c.memo ∧ c'.pending = c.pending

theorem ChangesOnlySymbolOf.refl (c : Compilation) (ty : TypeId) : c.ChangesOnlySymbolOf c ty where
  symbols _ _ h _ := h
  count := Nat.le_refl _
  scopes := .refl _
  types := rfl
  packages := rfl
  aside := ⟨rfl, rfl, rfl, rfl, rfl⟩

theorem RecordKept.of_symbols (hs : c'.symbols = c.symbols) (ht : c'.types = c.types)
    (hp : c'.packages = c.packages) : c.RecordKept c' ty where
  entry := by rw [ht]
  symbol _ _ _ _ := by rw [hs]
  names _ _ _ _ := by rw [hs]
  packages := hp

/-- What a session has done to symbols and scopes only, nothing else shows. -/
theorem changesOnlySymbolOf_keep {package : Package} {t : Session}
    (hpackage : c.packages[env.package]? = some package)
    (aside : t = { c.session package {} with symbols := t.symbols })
    (symbols : ∀ y a, c.symbols.find y = .ok a →
      (∀ e, c.types.find ty = .ok e → e.symbol ≠ some y) → t.symbols.find y = .ok a)
    (count : c.symbols.symbols.size ≤ t.symbols.symbols.size)
    (scopes : Grows c.symbols.scopes t.symbols.scopes) :
    c.ChangesOnlySymbolOf (c.keep env.package {} t) ty := by
  have htypes : t.types = c.types := by rw [aside]; rfl
  have hnames : t.names = c.names := by rw [aside]; rfl
  have hmemo : t.memo = c.memo 0 := by rw [aside]; rfl
  have hpending : t.pending = c.pending 0 := by rw [aside]; rfl
  have hpackage' : t.package = package := by rw [aside]; rfl
  exact
    { symbols, count, scopes
      types := htypes
      packages := packages_keep hpackage hpackage'
      aside := ⟨hnames, rfl, rfl, memo_keep_of_eq hmemo, pending_keep_of_eq hpending⟩ }

/-- A symbol whose scope has been opened since is not what it was. -/
theorem find_ne_of_scope (hc : c.Closed) {y : SymbolId} {named now : Symbol}
    (hnamed : c.symbols.find y = .ok named) (hnow : c'.symbols.find y = .ok now) {id : ScopeId}
    (hscope : now.scope = some id) (hid : c.symbols.scopes.size ≤ id.index) :
    c'.symbols.find y ≠ c.symbols.find y := by
  intro h
  obtain rfl := Except.ok.inj (hnamed.symm.trans (h.symm.trans hnow))
  have hin := (within_symbolTable.1 hc.tables.symbols).1.getElem?
    (SymbolTable.find_eq_ok_iff.1 hnamed)
  have hlt := within_scopeId.1 (within_some.1 (hscope ▸ (within_symbol.1 hin).2.2.2))
  rw [← hc.tables.scope_count] at hlt
  exact absurd hlt (Nat.not_lt_of_le hid)

/-- **A failed registration leaves the record alone exactly if there was no record**, or no symbol
for it. The definitions it leaves alone in any case, and so it does whatever is not the symbol of
the record. -/
theorem record_kept_iff (c c' : Compilation) (env : Environment) (ty : TypeId) (span : Span)
    (x : Stop) (hc : c.Closed) (hr : registerAnonymousRecord env ty span c = .error x c') :
    c.ChangesOnlySymbolOf c' ty ∧ (c.RecordKept c' ty ↔
      x = .dangling ∨ x = Fault.wrongType ty .record ∨ x = Fault.symbolMissing ty) := by
  obtain ⟨-, rfl, rfl⟩ | ⟨package, t, hpackage, hrun, rfl⟩ := synthesize_eq_error_iff.1 hr
  · exact ⟨.refl _ ty, fun _ => .inl rfl, fun _ => .of_symbols rfl rfl rfl⟩
  have h : Synth.Registers ⟨c.settings, env.scopeOwner⟩ ty span (c.session package {})
      (Synth.registerAnonymousRecord ⟨c.settings, env.scopeOwner⟩ ty span (c.session package {})) :=
    Synth.registers hc.tables (hc.package hpackage)
  rw [hrun] at h
  rcases h.stopped with ⟨reason, rfl⟩ | ⟨e, r, y, named, outer, now, m, finds, hscope, hx, fills⟩
  · have honly : c.ChangesOnlySymbolOf (c.keep env.package {} (c.session package {})) ty :=
      changesOnlySymbolOf_keep hpackage rfl (fun _ _ ha _ => ha) (Nat.le_refl _) (.refl _)
    exact ⟨honly, fun _ => reason, fun _ => .of_symbols rfl rfl honly.packages⟩
  · -- the symbol of the record has started over
    refine ⟨changesOnlySymbolOf_keep hpackage fills.aside (fun y' a ha hne => ?_) ?_ ?_,
      fun hkept => ?_, fun reason => ?_⟩
    · have hy : y' ≠ y := fun h => hne e finds.entry (h ▸ finds.symbol)
      exact fills.find_symbol (Synth.find_reopened_of_ne ha hy _)
    · have hsize := fills.symbols.size_le
      rw [Synth.size_reopened] at hsize
      exact Nat.le_of_succ_le hsize
    · rw [Synth.scopes_of_fillsNewest fills]
      exact (Grows.push _ _).trans (.push _ _)
    · have hnow := fills.find_symbol (Synth.find_reopened finds.found now)
      exact absurd (hkept.symbol e y finds.entry finds.symbol)
        (find_ne_of_scope hc finds.found hnow hscope (Nat.le_succ _))
    · rcases hx with rfl | ⟨_, _, _, rfl⟩ <;> rcases reason with h | h | h <;> cases h

/-- A record with a symbol that has a scope, and with one field name under two keys. -/
def doubled : Compilation :=
  let x : Field := { name := "x", ty := Builtin.int }
  let r : TypeEntry :=
    { ty := .record { fields := .ofList [("a", x), ("b", x)] }, symbol := some ⟨1⟩ }
  (app [("R", ⟨14⟩)] [r]).execute [.openScope ⟨0⟩, .openScope ⟨1⟩]

/-- When the name is found to be taken, the symbol of the record has started over. -/
theorem doubled_reopened : doubled.Closed ∧ ∃ (f : Fault) (c' : Compilation),
    registerAnonymousRecord ⟨0, ⟨0⟩⟩ ⟨14⟩ {} doubled = .error f c' ∧
      ¬doubled.RecordKept c' ⟨14⟩ := by
  have hrun : stops? (registerAnonymousRecord ⟨0, ⟨0⟩⟩ ⟨14⟩ {} doubled) =
      some (.fault (.nameTaken "x" ⟨1⟩ ⟨3⟩)) := by
    decide +kernel
  obtain ⟨c', hc'⟩ := stops?_eq_some hrun
  have hafter : doubled.after (registerAnonymousRecord ⟨0, ⟨0⟩⟩ ⟨14⟩ {}) = c' := by
    rw [Compilation.after, hc']
  refine ⟨by decide +kernel, _, c', hc', fun h => ?_⟩
  have hne : (doubled.after (registerAnonymousRecord ⟨0, ⟨0⟩⟩ ⟨14⟩ {})).symbols.find ⟨1⟩ ≠
      doubled.symbols.find ⟨1⟩ := by
    decide +kernel
  rw [hafter] at hne
  exact hne (h.symbol _ ⟨1⟩ rfl rfl)

/-- A type that is no record is left alone. -/
theorem doubled_kept : ∃ c', registerAnonymousRecord ⟨0, ⟨0⟩⟩ Builtin.int {} doubled =
      .error (Fault.wrongType Builtin.int .record) c' ∧
    doubled.ChangesOnlySymbolOf c' Builtin.int ∧ doubled.RecordKept c' Builtin.int := by
  have hrun : stops? (registerAnonymousRecord ⟨0, ⟨0⟩⟩ Builtin.int {} doubled) =
      some (.fault (.wrongType Builtin.int .record)) := by
    decide +kernel
  obtain ⟨c', hc'⟩ := stops?_eq_some hrun
  obtain ⟨honly, hkept⟩ :=
    record_kept_iff doubled c' ⟨0, ⟨0⟩⟩ Builtin.int {} _ (by decide +kernel) hc'
  exact ⟨c', hc', honly, hkept.2 (.inr (.inl rfl))⟩

end Compilation

end StructuralTypes
