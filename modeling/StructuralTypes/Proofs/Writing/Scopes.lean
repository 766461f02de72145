import StructuralTypes.Proofs.Writing.Run

/-!
# Scopes over a run

From an empty symbol table on, whatever is done and however it ends: symbols and scopes stand where
their handles say, a symbol's scope is its own, and the bindings of a scope are only ever appended
to. So a name that a scope has bound once means the same in it from then on, and trying to bind it
again changes nothing and is told the symbol that it means.

Only a command that overwrites a symbol could give it a scope that is not its own.

Results:
* `define_eq_nameTaken_iff`: a name is reported as taken exactly if the scope binds it.
* `bindsOnce`: how a binding is refused.
* **`scopes_execute`**: scopes over a whole run.
-/

namespace StructuralTypes

namespace SymbolTable

variable {t u : SymbolTable} {x owner existing : SymbolId} {id : ScopeId} {name n : String}

/-- **A name is reported as taken exactly if the scope binds it**, with what it is bound to. -/
theorem define_eq_nameTaken_iff :
    t.define id name x = .error (Fault.nameTaken n owner existing) ↔
      n = name ∧ ∃ scope, t.findScope id = .ok scope ∧ scope.owner = owner ∧
        scope.get? name = some existing := by
  unfold define
  cases hscope : t.findScope id with
  | error e =>
    obtain rfl : e = .dangling := by
      unfold findScope at hscope
      split at hscope
      · cases hscope
      · exact (Except.error.inj hscope).symm
    simp [bind, Except.bind]
  | ok scope =>
    cases hget : scope.get? name with
    | none => simp [Scope.define, hget, bind, Except.bind, pure, Except.pure]
    | some found =>
      simp only [Scope.define, hget, bind, Except.bind, Except.error.injEq, Stop.fault.injEq,
        Fault.nameTaken.injEq, Except.ok.injEq, Option.some.injEq, exists_eq_left']
      exact and_congr_left fun _ => eq_comm

/-- A binding that was made is there. -/
theorem HasBinding.of_define (h : t.define id name x = .ok u) : u.HasBinding id name x := by
  obtain ⟨scope, extended, hscope, hextended, rfl⟩ := define_eq_ok h
  obtain ⟨hnew, rfl⟩ := Scope.define_eq_ok_iff.1 hextended
  refine ⟨_, findScope_set_self hscope _, OrderedMap.get?_eq_some_iff.2 ?_⟩
  rw [OrderedMap.entries_insert_of_not_mem hnew]
  exact List.mem_append_right _ (List.mem_singleton.2 rfl)

end SymbolTable

namespace Compilation

variable {c c' : Compilation} {x owner : SymbolId} {id : ScopeId} {name : String}

/-! ## Commands that bind names -/

theorem action_defineAt (c : Compilation) (id : ScopeId) (name : String) (x : SymbolId) :
    (Command.defineAt id name x).action c =
      match c.symbols.define id name x with
      | .ok symbols => .ok () { c with symbols }
      | .error e => .error e c := by
  show onTables (Synth.onSymbols (·.define id name x)) c = _
  unfold onTables Synth.onSymbols
  dsimp only [session]
  cases c.symbols.define id name x <;> rfl

theorem action_define (c : Compilation) (owner : SymbolId) (name : String) (x : SymbolId) :
    (Command.define owner name x).action c =
      match c.symbols.defineIn owner name x with
      | .ok symbols => .ok () { c with symbols }
      | .error e => .error e c := by
  show onTables (Synth.onSymbols (·.defineIn owner name x)) c = _
  unfold onTables Synth.onSymbols
  dsimp only [session]
  cases c.symbols.defineIn owner name x <;> rfl

/-- How names are bound in a compilation: once. -/
structure BindsOnce (c : Compilation) : Prop where
  /-- A name that is bound in a scope is so from then on. -/
  bound : ∀ id name x c', (Command.defineAt id name x).action c = .ok () c' →
    c'.symbols.HasBinding id name x
  /-- A name that cannot be bound in a scope leaves everything as it is. -/
  refused : ∀ id name x e c', (Command.defineAt id name x).action c = .error e c' → c' = c
  /-- A name that cannot be bound for a symbol leaves everything as it is. -/
  refused_in : ∀ owner name x e c', (Command.define owner name x).action c = .error e c' → c' = c
  /-- A name is taken exactly if the scope itself binds it, by the symbol that it is bound to. -/
  taken : ∀ id name x n owner existing,
    (Command.defineAt id name x).action c = .error (Fault.nameTaken n owner existing) c ↔
      n = name ∧ ∃ scope, c.symbols.findScope id = .ok scope ∧ scope.owner = owner ∧
        scope.get? name = some existing
  /-- What a symbol binds is bound in its current scope. -/
  current : ∀ owner id name x, c.symbols.scopeOf owner = .ok id →
    (Command.define owner name x).action c = (Command.defineAt id name x).action c

theorem bindsOnce (c : Compilation) : c.BindsOnce := by
  refine ⟨fun id name x c' h => ?_, fun id name x e c' h => ?_, fun owner name x e c' h => ?_,
    fun id name x n owner existing => ?_, fun owner id name x h => ?_⟩
  · rw [action_defineAt] at h
    split at h
    · rename_i symbols hsymbols
      injection h with _ hc'
      subst hc'
      exact .of_define hsymbols
    · cases h
  · rw [action_defineAt] at h
    split at h
    · cases h
    · injection h with _ hc'
      exact hc'.symm
  · rw [action_define] at h
    split at h
    · cases h
    · injection h with _ hc'
      exact hc'.symm
  · rw [← SymbolTable.define_eq_nameTaken_iff, action_defineAt]
    cases c.symbols.define id name x <;> simp
  · rw [action_define, action_defineAt]
    unfold SymbolTable.defineIn
    rw [h]
    rfl

/-! ## Runs -/

/-- **Over a whole run from an empty symbol table**, every state is in order, scopes keep their
handles and owners and only get more bindings, a binding that fails changes nothing, and a name goes
on being reported as taken by the symbol that it was first bound to. -/
theorem scopes_execute (c : Compilation) (commands : List Command) (hempty : c.symbols = ∅)
    (hkept : ∀ command ∈ commands, command.overwritesSymbol = false) :
    (∀ pre, pre <+: commands → (c.execute pre).symbols.Orderly ∧ (c.execute pre).BindsOnce) ∧
      ∀ pre post, pre <+: post → post <+: commands →
        (c.execute pre).symbols.ScopesGrow (c.execute post).symbols ∧
          ∀ id name first x, (c.execute pre).symbols.HasBinding id name first →
            ∃ owner, (Command.defineAt id name x).action (c.execute post) =
              .error (Fault.nameTaken name owner first) (c.execute post) := by
  have hkeeps : ∀ post, post <+: commands → ∀ command ∈ post, command.overwritesSymbol = false :=
    fun post hpost command hmem => hkept command (hpost.subset hmem)
  constructor
  · intro pre hpre
    refine ⟨SymbolTable.Orderly.writes ?_ (develops_execute (hkeeps pre hpre)).symbols,
      bindsOnce _⟩
    rw [hempty]
    exact SymbolTable.orderly_empty
  · intro pre post hpre hpost
    have hgrow : (c.execute pre).symbols.ScopesGrow (c.execute post).symbols :=
      .of_writes (develops_between (hkeeps post hpost) hpre).symbols
    refine ⟨hgrow, fun id name first x hfirst => ?_⟩
    obtain ⟨scope, hscope, hget⟩ := hfirst.grow hgrow
    exact ⟨scope.owner, ((bindsOnce _).taken id name x name scope.owner first).2
      ⟨rfl, scope, hscope, rfl, hget⟩⟩

/-- An object type gets an initializer, fails to get another one, and then a new scope, in which a
name of the old one is bound again. -/
def reopened : List Command :=
  [.addPackage ⟨0⟩ "app", .addSymbol (.type {}) { name := "T", package := ⟨0⟩, span := {} },
    .openScope ⟨0⟩, .addType { ty := .object {}, symbol := some ⟨0⟩ },
    .addNode (.object { ty := some ⟨14⟩, symbol := some ⟨0⟩ }), .attachInitializer ⟨0, ⟨0⟩⟩ 0,
    .attachInitializer ⟨0, ⟨0⟩⟩ 0, .define ⟨0⟩ "x" ⟨1⟩, .openScope ⟨0⟩, .define ⟨0⟩ "x" ⟨2⟩,
    .defineAt ⟨0⟩ "x" ⟨2⟩]

theorem execute_reopened :
    ((∅ : Compilation).execute reopened).symbols.Orderly ∧
      ∃ owner, (Command.defineAt ⟨0⟩ "x" ⟨2⟩).action ((∅ : Compilation).execute reopened) =
        .error (Fault.nameTaken "x" owner ⟨1⟩) ((∅ : Compilation).execute reopened) := by
  obtain ⟨hstates, hgrow⟩ := scopes_execute ∅ reopened rfl (by decide)
  refine ⟨(hstates reopened List.prefix_rfl).1, ?_⟩
  exact (hgrow (reopened.take 8) reopened (List.take_prefix 8 reopened) List.prefix_rfl).2 ⟨0⟩ "x"
    ⟨1⟩ ⟨2⟩ (by decide +kernel)

end Compilation

end StructuralTypes
