import StructuralTypes.Proofs.Outcome
import StructuralTypes.Proofs.Writing.Package
import StructuralTypes.Proofs.Writing.Table

/-!
# What a synthesis writes

A session is written to in three ways: its symbol table gets a write, a definition is registered in
its package, or something else is changed that neither of these depends on. `Session.Write` says
which registrations are possible at all: none, or those of type definitions under symbols from a
number on, and of classes.

An operation is `Steady` if all that it registers, it registers under symbols that are newer than
the session it began with. Of two steady operations in a row the second one registers newer symbols
still, so a symbol that was made in between is not registered by it, and can be registered after
it. This is why such a registration never fails as a duplicate.

Results:
* `Session.Writes.symbols`, `Session.Writes.package`: what the writes of a session are to its parts.
* `Session.Advances.trans`: two operations in a row.
* `Steady.bind`, `steady_mapM`, `Steady.fresh`: the rules.
* **`ends_registerType_of_fresh`**: a symbol that is still unregistered can be registered.
-/

namespace StructuralTypes

/-! ## Sessions -/

namespace Session

variable {s t u : Session} {registers : Bool} {n m : Nat} {x y : SymbolId}

/-- One write to a session. If it may register definitions, then type definitions under symbols that
are there and have at least the number `n`. -/
inductive Write (registers : Bool) (n : Nat) (s : Session) : Session → Prop
  /-- The symbol table is written to. -/
  | symbols {symbols : SymbolTable} (written : s.symbols.Write symbols) :
    Write registers n s { s with symbols }
  /-- Something else is changed than the symbols and the package. -/
  | aside (types : TypeTable) (names : NameSupply) (memo pending : CloneMap) :
    Write registers n s { s with types, names, memo, pending }
  /-- A definition is registered. -/
  | register (d : Definition) (free : d.symbol ∉ s.package.symbols d.registry)
    (allowed : registers = true)
    (recent : d.registry = .types → n ≤ d.symbol.index ∧ d.symbol.index < s.symbols.symbols.size) :
    Write registers n s { s with package := s.package.enter d }

/-- Any number of writes to a session. -/
abbrev Writes (registers : Bool) (n : Nat) : Session → Session → Prop :=
  Relation.ReflTransGen (Write registers n)

/-- The symbols that type definitions are registered under. -/
def registered (s : Session) : List SymbolId := s.package.symbols .types

/-- The symbols of all registered type definitions are there. -/
def DefinitionsInRange (s : Session) : Prop := ∀ x ∈ s.registered, x.index < s.symbols.symbols.size

theorem Write.mono (h : Write registers m s t) (hnm : n ≤ m) : Write registers n s t := by
  cases h with
  | symbols written => exact .symbols written
  | aside types names memo pending => exact .aside types names memo pending
  | register d free allowed recent =>
    exact .register d free allowed fun hd => ⟨Nat.le_trans hnm (recent hd).1, (recent hd).2⟩

namespace Writes

theorem mono (h : Writes registers m s t) (hnm : n ≤ m) : Writes registers n s t :=
  Relation.ReflTransGen.mono (fun _ _ hw => hw.mono hnm) _ _ h

/-- Registrations that may happen need not. -/
theorem weaken (h : Writes registers n s t) : Writes true n s t := by
  refine Relation.ReflTransGen.mono (fun _ _ hw => ?_) _ _ h
  cases hw with
  | symbols written => exact .symbols written
  | aside types names memo pending => exact .aside types names memo pending
  | register d free _ recent => exact .register d free rfl recent

/-- What is written to the symbol table. -/
theorem symbols (h : Writes registers n s t) : s.symbols.Writes t.symbols := by
  induction h with
  | refl => exact .refl
  | tail _ hwrite ih =>
    cases hwrite with
    | symbols written => exact ih.tail written
    | aside | register => exact ih

/-- What is written to the package. -/
theorem package (h : Writes registers n s t) : s.package.Writes t.package := by
  induction h with
  | refl => exact .refl
  | tail _ hwrite ih =>
    cases hwrite with
    | symbols | aside => exact ih
    | register d free => exact ih.tail (.enter d free)

theorem package_eq (h : Writes false n s t) : t.package = s.package := by
  induction h with
  | refl => rfl
  | tail _ hwrite ih =>
    cases hwrite with
    | symbols | aside => exact ih
    | register _ _ allowed => cases allowed

/-- What is registered was registered, or has at least that number. -/
theorem registered (h : Writes registers n s t) (hx : x ∈ t.registered) :
    x ∈ s.registered ∨ n ≤ x.index := by
  induction h with
  | refl => exact .inl hx
  | tail _ hwrite ih =>
    cases hwrite with
    | symbols | aside => exact ih hx
    | register d _ _ recent =>
      rcases Package.mem_symbols_enter.1 hx with hx | ⟨hd, rfl⟩
      · exact ih hx
      · exact .inr (recent hd.symm).1

/-- Symbols of registered definitions are there as before. -/
theorem definitionsInRange (h : Writes registers n s t) (hs : s.DefinitionsInRange) :
    t.DefinitionsInRange := by
  induction h with
  | refl => exact hs
  | tail _ hwrite ih =>
    cases hwrite with
    | symbols written => exact fun x hx => Nat.lt_of_lt_of_le (ih x hx) written.size_le
    | aside => exact ih
    | register d _ _ recent =>
      intro x hx
      rcases Package.mem_symbols_enter.1 hx with hx | ⟨hd, rfl⟩
      · exact ih x hx
      · exact (recent hd.symm).2

end Writes

/-! ## Operations that go forward -/

/-- From `s` to `t`, type definitions are registered at most under symbols that `s` did not have. -/
def Advances (registers : Bool) (s t : Session) : Prop :=
  Writes registers s.symbols.symbols.size s t

namespace Advances

theorem refl (s : Session) : Advances registers s s := Relation.ReflTransGen.refl

theorem single (h : Write registers s.symbols.symbols.size s t) : Advances registers s t :=
  Relation.ReflTransGen.single h

theorem size_le (h : Advances registers s t) : s.symbols.symbols.size ≤ t.symbols.symbols.size :=
  (Writes.symbols h).size_le

theorem trans (h : Advances registers s t) (h' : Advances registers t u) : Advances registers s u :=
  Relation.ReflTransGen.trans h (Writes.mono h' h.size_le)

theorem weaken (h : Advances registers s t) : Advances true s t := Writes.weaken h

theorem package_eq (h : Advances false s t) : t.package = s.package := Writes.package_eq h

end Advances

/-- The symbol is newer than `s` and no type definition has been registered under it, unless `s` had
one out of range. -/
structure Fresh (registers : Bool) (s u : Session) (y : SymbolId) : Prop where
  /-- The session has come from `s`. -/
  advances : Advances registers s u
  /-- The symbol was not there. -/
  new : s.symbols.symbols.size ≤ y.index
  /-- The symbol is there. -/
  there : y.index < u.symbols.symbols.size
  /-- It is not registered. -/
  free : s.DefinitionsInRange → y ∉ u.registered

/-- The next symbol that is added is fresh. -/
theorem Fresh.add (h : Advances registers s u) (kind : SymbolKind) (d : Declaration) :
    Fresh registers s { u with symbols := (u.symbols.add kind d).2 } ⟨u.symbols.symbols.size⟩ where
  advances := h.trans (.single (.symbols (.add kind d)))
  new := h.size_le
  there := by simp [SymbolTable.add]
  free hs hy := Nat.lt_irrefl _ (Writes.definitionsInRange h hs _ hy)

/-- A fresh symbol stays so, whatever is registered under newer ones. -/
theorem Fresh.advance (h : Fresh registers s t y) (h' : Advances registers t u) :
    Fresh registers s u y where
  advances := h.advances.trans h'
  new := h.new
  there := Nat.lt_of_lt_of_le h.there h'.size_le
  free hs hy := by
    rcases Writes.registered h' hy with hold | hnew
    · exact h.free hs hold
    · exact absurd h.there (Nat.not_lt_of_le hnew)

/-- In `t`, the definition is registered after all of `s`, and nothing else about the package has
changed. -/
structure Enters (s : Session) (d : Definition) (number : Nat) (t : Session) : Prop where
  /-- Its symbol had no definition of that kind. -/
  free : d.symbol ∉ s.package.symbols d.registry
  /-- The number of the definition. -/
  number_eq : number = (s.package.definitions d.registry).length
  /-- The package with the definition. -/
  package_eq : t.package = s.package.enter d

theorem Enters.of_advances {d : Definition} (h' : t.Enters d n u) (h : Advances false s t) :
    s.Enters d n u := by
  obtain ⟨hfree, hnumber, hpackage⟩ := h'
  rw [h.package_eq] at hfree hnumber hpackage
  exact ⟨hfree, hnumber, hpackage⟩

/-- In `t`, a type is registered under the symbol with the node. -/
def EntersNode (s : Session) (y : SymbolId) (ty : TypeId) (node : TypeNode) (number : Nat)
    (t : Session) : Prop :=
  ∃ d : TypeDefinition, d.symbol = y ∧ d.ty = some ty ∧ d.node = node ∧
    s.Enters (.ofType d) number t

theorem EntersNode.of_advances {ty : TypeId} {node : TypeNode}
    (h' : t.EntersNode y ty node n u) (h : Advances false s t) : s.EntersNode y ty node n u := by
  obtain ⟨d, hy, hty, hnode, henters⟩ := h'
  exact ⟨d, hy, hty, hnode, henters.of_advances h⟩

end Session

/-- Whether the stop reports that a symbol has a definition already. -/
def Stop.isDuplicate : Stop → Bool
  | .fault (.typeDefined ..) | .fault (.classDefined ..) => true
  | _ => false

/-- The reading does not stop over a duplicate. -/
def Unregistering {α : Type} (x : Except Stop α) : Prop :=
  ∀ e, x = .error e → e.isDuplicate = false

section Readings

variable {α β : Type} {S : SymbolTable} {T : TypeTable}

theorem Unregistering.bind {x : Except Stop α} {f : α → Except Stop β} (hx : Unregistering x)
    (hf : ∀ a, Unregistering (f a)) : Unregistering (x >>= f) := by
  intro e he
  cases hx' : x with
  | error e' =>
    rw [hx'] at he
    obtain rfl : e' = e := Except.error.inj he
    exact hx _ hx'
  | ok a =>
    rw [hx'] at he
    exact hf a e he

theorem unregistering_ok (a : α) : Unregistering (.ok a) := fun _ h => nomatch h

theorem unregistering_error {e : Stop} (h : e.isDuplicate = false) :
    Unregistering (.error e : Except Stop α) :=
  fun _ he => Except.error.inj he ▸ h

theorem unregistering_symbol (x : SymbolId) : Unregistering (S.find x) := by
  unfold SymbolTable.find
  split
  · exact unregistering_ok _
  · exact unregistering_error rfl

theorem unregistering_define (id : ScopeId) (name : String) (x : SymbolId) :
    Unregistering (S.define id name x) := by
  unfold SymbolTable.define SymbolTable.findScope Scope.define
  refine Unregistering.bind ?_ fun scope => Unregistering.bind ?_ fun _ => unregistering_ok _
  · split
    · exact unregistering_ok _
    · exact unregistering_error rfl
  · split
    · exact unregistering_error rfl
    · exact unregistering_ok _

theorem unregistering_defineIn (owner : SymbolId) (name : String) (x : SymbolId) :
    Unregistering (S.defineIn owner name x) := by
  unfold SymbolTable.defineIn SymbolTable.scopeOf
  refine Unregistering.bind ((unregistering_symbol owner).bind fun _ => ?_) fun id =>
    unregistering_define id name x
  split
  · exact unregistering_ok _
  · exact unregistering_error rfl

theorem unregistering_type (ty : TypeId) : Unregistering (T.find ty) := by
  unfold TypeTable.find
  split
  · exact unregistering_ok _
  · exact unregistering_error rfl

theorem unregistering_implied (ty : TypeId) : Unregistering (T.implied ty) := by
  suffices h : ∀ fuel ty, Unregistering (T.impliedWithin fuel ty) from h _ ty
  intro fuel
  induction fuel with
  | zero => exact fun ty => unregistering_ok ty
  | succ fuel ih =>
    intro ty
    rw [TypeTable.impliedWithin]
    refine (unregistering_type ty).bind fun e => ?_
    split
    · exact ih _
    · exact unregistering_ok _

end Readings

namespace Synth

variable {α β ι : Type} {registers : Bool} {x : Synth α} {s u : Session} {y : SymbolId}
  {ty : TypeId}

/-! ## Steady operations -/

/-- The stop has left a session that has come from `s`, and does not report a duplicate, unless a
definition of `s` was out of range. -/
def StopsFair (registers : Bool) (s : Session) (e : Stop) (t : Session) : Prop :=
  s.Advances registers t ∧ (s.DefinitionsInRange → e.isDuplicate = false)

/-- The operation registers definitions under new symbols only, and does not fail over
duplicates. -/
def Steady (registers : Bool) (x : Synth α) : Prop :=
  ∀ s, Ends x s (fun _ t => s.Advances registers t) (StopsFair registers s)

theorem StopsFair.of_advances {e : Stop} {t : Session} (h : s.Advances registers u)
    (h' : StopsFair registers u e t) : StopsFair registers s e t :=
  ⟨h.trans h'.1, fun hs => h'.2 (Session.Writes.definitionsInRange h hs)⟩

theorem StopsFair.weaken {e : Stop} (h : StopsFair registers s e u) : StopsFair true s e u :=
  ⟨h.1.weaken, h.2⟩

theorem steady_pure (a : α) : Steady registers (pure a : Synth α) := fun s => .refl s

theorem steady_stop {e : Stop} (h : e.isDuplicate = false) :
    Steady registers (stop e : Synth α) :=
  fun s => ⟨.refl s, fun _ => h⟩

theorem Steady.bind {f : α → Synth β} (hx : Steady registers x)
    (hf : ∀ a, Steady registers (f a)) : Steady registers (x >>= f) := by
  intro s
  refine ends_bind.2 ((hx s).imp (fun a t ht => ?_) fun _ _ he => he)
  exact (hf a t).imp (fun _ _ hu => ht.trans hu) fun _ _ he => he.of_advances ht

theorem steady_mapM {f : ι → Synth α} {l : List ι} (hf : ∀ i, Steady registers (f i)) :
    Steady registers (l.mapM f) :=
  fun s => ends_mapM (I := fun _ _ t => s.Advances registers t) (.refl s) fun _ _ i _ t _ ht =>
    (hf i t).imp (fun _ _ hu => ht.trans hu) fun _ _ he => he.of_advances ht

theorem Steady.whilePending {source clone : TypeId} (hx : Steady registers x) :
    Steady registers (whilePending source clone x) := by
  intro s
  have hmark : ∀ (t : Session) (pending : CloneMap),
      t.Advances registers { t with pending } := fun t pending =>
    .single (.aside t.types t.names t.memo pending)
  refine ends_whilePending.2 ((hx _).imp (fun _ t ht => ?_) fun _ t he => ⟨?_, ?_⟩)
  · exact ((hmark s _).trans ht).trans (hmark t _)
  · exact ((hmark s _).trans he.1).trans (hmark t _)
  · exact (he.of_advances (hmark s _)).2

/-- What comes after a steady operation, whether or not it stops over a duplicate. -/
theorem Steady.bind_advances {f : α → Synth β} {Q : β → Session → Prop}
    (hx : Steady registers x) (h : s.Advances registers u)
    (hf : ∀ a t, s.Advances registers t → Ends (f a) t Q fun _ t => s.Advances registers t) :
    Ends (x >>= f) u Q fun _ t => s.Advances registers t :=
  ends_bind.2 ((hx u).imp (fun a t ht => hf a t (h.trans ht)) fun _ _ he => h.trans he.1)

/-- A fresh symbol stays so while a steady operation runs. -/
theorem Steady.fresh (hx : Steady registers x) (h : s.Fresh registers u y) :
    Ends x u (fun _ t => s.Fresh registers t y) (StopsFair registers s) :=
  (hx u).imp (fun _ _ ht => h.advance ht) fun _ _ he => he.of_advances h.advances

theorem Steady.bind_fresh {f : α → Synth β} {Q : β → Session → Prop}
    (hx : Steady registers x) (h : s.Fresh registers u y)
    (hf : ∀ a t, s.Fresh registers t y → Ends (f a) t Q (StopsFair registers s)) :
    Ends (x >>= f) u Q (StopsFair registers s) :=
  ends_bind.2 ((hx.fresh h).imp hf fun _ _ he => he)

/-- A new symbol is fresh. -/
theorem ends_addSymbol_fresh (h : s.Advances registers u) (kind : SymbolKind) (d : Declaration)
    {E : Stop → Session → Prop} :
    Ends (addSymbol kind d) u
      (fun y t => y = ⟨u.symbols.symbols.size⟩ ∧ s.Fresh registers t y) E :=
  ends_addSymbol.2 ⟨rfl, .add h kind d⟩

/-- **A fresh symbol can be registered.** -/
theorem ends_registerType_of_fresh {d : TypeDefinition} (h : s.Fresh registers u d.symbol) :
    Ends (registerType d) u (fun n t => s.Advances true t ∧ u.Enters (.ofType d) n t)
      (StopsFair registers s) := by
  refine ends_registerType.2 ⟨fun n package hn => ?_, fun e he => ⟨h.advances, fun hs => ?_⟩⟩
  · obtain ⟨hfree, hnumber, rfl⟩ := Package.registerType_eq_ok_iff_enter.1 hn
    exact ⟨h.advances.weaken.tail (.register (.ofType d) hfree rfl fun _ => ⟨h.new, h.there⟩),
      hfree, hnumber, rfl⟩
  · refine absurd (Package.registerType_eq_error_iff.1 he).1 ?_
    rw [← Package.symbols_types]
    exact h.free hs

/-! ## Readings -/

/-- The operation changes nothing, and does not fail over duplicates. -/
def Inspects (x : Synth α) : Prop :=
  ∀ s, Ends x s (fun _ t => t = s) fun e t => t = s ∧ e.isDuplicate = false

theorem Inspects.steady (hx : Inspects x) : Steady registers x := by
  intro s
  refine (hx s).imp ?_ ?_
  · rintro a _ rfl
    exact .refl _
  · rintro e _ ⟨rfl, he⟩
    exact ⟨.refl _, fun _ => he⟩

theorem Inspects.upholds {I : Session → Prop} (hx : Inspects x) : Upholds I x := by
  refine fun s h => (hx s).imp ?_ ?_
  · rintro _ _ rfl
    exact h
  · rintro _ _ ⟨rfl, -⟩
    exact h

theorem inspects_pure (a : α) : Inspects (pure a : Synth α) := fun _ => rfl

theorem inspects_stop {e : Stop} (h : e.isDuplicate = false) : Inspects (stop e : Synth α) :=
  fun _ => ⟨rfl, h⟩

theorem inspects_reading {read : Session → Except Stop α} (h : ∀ s, Unregistering (read s)) :
    Inspects (reading read) :=
  fun s => ends_reading.2 ⟨fun _ _ => rfl, fun e he => ⟨rfl, h s e he⟩⟩

theorem Inspects.bind {f : α → Synth β} (hx : Inspects x) (hf : ∀ a, Inspects (f a)) :
    Inspects (x >>= f) := by
  intro s
  refine ends_bind.2 ((hx s).imp ?_ fun _ _ he => he)
  rintro a _ rfl
  exact hf a _

/-- What comes after a reading begins with the same session. -/
theorem Inspects.ends_next {f : α → Synth β} {Q : β → Session → Prop} {E : Stop → Session → Prop}
    (hx : Inspects x) (hE : ∀ e, e.isDuplicate = false → E e s)
    (hf : ∀ a, x s = .ok a s → Ends (f a) s Q E) : Ends (x >>= f) s Q E := by
  refine ends_bind.2 (ends_iff.2 ⟨fun a t ha => ?_, fun e t he => ?_⟩)
  · obtain rfl := (hx s).of_ok ha
    exact hf a ha
  · obtain ⟨rfl, hdup⟩ := (hx s).of_error he
    exact hE e hdup

theorem Inspects.bind_ends {f : α → Synth β} {Q : β → Session → Prop} (hx : Inspects x)
    (hf : ∀ a, Ends (f a) s Q (StopsFair registers s)) :
    Ends (x >>= f) s Q (StopsFair registers s) :=
  hx.ends_next (fun _ he => ⟨.refl _, fun _ => he⟩) fun a _ => hf a

/-! ## Steps -/

/-- Neither the types nor the counters nor what is known of clones matter. -/
theorem advances_aside (s : Session) (types : TypeTable) (names : NameSupply)
    (memo pending : CloneMap) :
    s.Advances registers { s with types, names, memo, pending } :=
  .single (.aside types names memo pending)

theorem inspects_symbol (y : SymbolId) : Inspects (symbol y) :=
  inspects_reading fun _ => unregistering_symbol y

theorem inspects_entry (ty : TypeId) : Inspects (entry ty) :=
  inspects_reading fun _ => unregistering_type ty

theorem inspects_implied (ty : TypeId) : Inspects (implied ty) :=
  inspects_reading fun _ => unregistering_implied ty

theorem inspects_isReadonly (ty : TypeId) : Inspects (isReadonly ty) :=
  inspects_reading fun _ => (unregistering_type ty).bind fun _ => unregistering_ok _

theorem inspects_packageId : Inspects packageId := inspects_reading fun _ => unregistering_ok _

theorem inspects_qualifierFor (target : PackageId) : Inspects (qualifierFor target) :=
  inspects_reading fun _ => unregistering_ok _

theorem inspects_symbolOf (ty : TypeId) : Inspects (symbolOf ty) := by
  unfold symbolOf
  refine (inspects_entry ty).bind fun e => ?_
  split
  · exact inspects_pure _
  · exact inspects_stop rfl

theorem inspects_typeOf (y : SymbolId) : Inspects (typeOf y) := by
  unfold typeOf
  refine (inspects_symbol y).bind fun named => ?_
  split
  · exact inspects_pure _
  · exact inspects_stop rfl

theorem inspects_nameOf (ty : TypeId) : Inspects (nameOf ty) := by
  unfold nameOf
  refine (inspects_symbolOf ty).bind fun y => (inspects_symbol y).bind fun named => ?_
  dsimp only
  split
  · exact inspects_stop rfl
  · exact inspects_pure _

theorem inspects_kindOf (ty : TypeId) : Inspects (kindOf ty) := by
  unfold kindOf
  refine (inspects_entry ty).bind fun e => ?_
  split
  · exact inspects_pure _
  · exact inspects_stop rfl

theorem inspects_fieldsOf (ty : TypeId) : Inspects (fieldsOf ty) := by
  unfold fieldsOf
  refine (inspects_entry ty).bind fun e => ?_
  split
  · exact inspects_pure _
  · exact inspects_stop rfl

theorem inspects_requireRecord (ty : TypeId) : Inspects (requireRecord ty) := by
  unfold requireRecord
  refine (inspects_entry ty).bind fun e => ?_
  split
  · exact inspects_pure _
  · exact inspects_stop rfl

theorem inspects_requireObject (ty : TypeId) : Inspects (requireObject ty) := by
  unfold requireObject
  refine (inspects_entry ty).bind fun e => ?_
  split
  · exact inspects_pure _
  · exact inspects_stop rfl

theorem steady_addSymbol (kind : SymbolKind) (d : Declaration) :
    Steady registers (addSymbol kind d) :=
  fun _ => ends_addSymbol.2 (.single (.symbols (.add kind d)))

/-- A symbol is changed, but not in its handle and its scope. -/
theorem steady_changeSymbol (y : SymbolId) {f : Symbol → Symbol}
    (hf : ∀ named, (f named).id = named.id ∧ (f named).scope = named.scope) :
    Steady registers (changeSymbol y f) := by
  refine fun s => ends_onSymbols.2 ⟨fun symbols h => ?_, fun e he => ⟨.refl s, fun _ => ?_⟩⟩
  · obtain ⟨named, hnamed, rfl⟩ := SymbolTable.change_eq_ok h
    exact .single (.symbols (.edit hnamed (hf named).1 (hf named).2))
  · exact (unregistering_symbol y).bind (fun _ => unregistering_ok _) e he

theorem steady_changeTypeLinks (y : SymbolId) (role : SymbolRole) (f : TypeLinks → TypeLinks) :
    Steady registers (changeTypeLinks y role f) := by
  unfold changeTypeLinks
  refine (inspects_symbol y).steady.bind fun named => ?_
  split
  · exact steady_changeSymbol y fun named => ⟨named.mapTypeLinks_id f, named.mapTypeLinks_scope f⟩
  · exact steady_stop rfl

theorem steady_openScope (y : SymbolId) : Steady registers (openScope y) := by
  intro s
  unfold Ends openScope
  cases h : s.symbols.openScope y with
  | ok r => exact .single (.symbols (.openScope h))
  | error e =>
    refine ⟨.refl s, fun _ => ?_⟩
    unfold SymbolTable.openScope at h
    exact ((unregistering_symbol y).bind (fun _ => unregistering_ok _)).bind
      (fun _ => unregistering_ok _) e h

theorem steady_defineAt (id : ScopeId) (name : String) (y : SymbolId) :
    Steady registers (defineAt id name y) :=
  fun s => ends_onSymbols.2 ⟨fun _ h => .single (.symbols (.define h)),
    fun e he => ⟨.refl s, fun _ => unregistering_define id name y e he⟩⟩

theorem steady_define (owner : SymbolId) (name : String) (y : SymbolId) :
    Steady registers (define owner name y) := by
  refine fun s => ends_onSymbols.2 ⟨fun symbols h => ?_, fun e he => ⟨.refl s, fun _ => ?_⟩⟩
  · obtain ⟨id, -, hdefine⟩ := SymbolTable.defineIn_eq_ok h
    exact .single (.symbols (.define hdefine))
  · exact unregistering_defineIn owner name y e he

theorem steady_addType (e : TypeEntry) : Steady registers (addType e) :=
  fun s => ends_addType.2 (advances_aside s _ _ _ _)

theorem steady_changeType (ty : TypeId) (f : TypeEntry → TypeEntry) :
    Steady registers (changeType ty f) :=
  fun s => ends_onTypes.2 ⟨fun _ _ => advances_aside s _ _ _ _, fun e he => ⟨.refl s, fun _ =>
    (unregistering_type ty).bind (fun _ => unregistering_ok _) e he⟩⟩

theorem steady_nextName (family : NameFamily) (package : PackageId) :
    Steady registers (nextName family package) :=
  fun s => advances_aside s _ _ _ _

theorem steady_remember (ty variant : TypeId) : Steady registers (remember ty variant) :=
  fun s => advances_aside s _ _ _ _

end Synth

end StructuralTypes
