import StructuralTypes.Proofs.Outcome
import StructuralTypes.Proofs.Range.Reading

/-!
# Steps in a closed session

A session is closed if all handles that it stores lead to something. `Secure b x` says of the
operation `x` that in each closed session of extent `b` it never comes to the end of a table, and
that it leaves a closed session and a result within it, also when it stops. The tables may have
grown by then, and what comes next begins with the new extent.

Most steps only read: `Reads b x` says in addition that the session stays as it is, so what comes
next begins with the old extent.

Results:
* `Secure.bind`, `Reads.bind`, `secure_mapM`, `Secure.whilePending`: the rules.
* **`secure_addSymbol`**, **`secure_openScope`**, **`secure_define`**, **`secure_changeType`**, ...:
  each write leaves a closed session, if what it writes is within.
-/

namespace StructuralTypes

/-! ## Closed sessions -/

/-- All handles of the session `t` lead to something, and it reaches at least as far as `s`. -/
structure Session.ClosedBeyond (s t : Session) : Prop where
  /-- The tables have not shrunk. -/
  extent : s.extent ≤ t.extent
  /-- All handles lead to something. -/
  closed : t.Closed

namespace Session

variable {s t u : Session}

theorem ClosedBeyond.trans (h : s.ClosedBeyond t) (h' : t.ClosedBeyond u) : s.ClosedBeyond u :=
  ⟨Extent.le_trans h.extent h'.extent, h'.closed⟩

namespace Closed

theorem beyond (h : s.Closed) : s.ClosedBeyond s := ⟨s.extent.le_refl, h⟩

theorem tables (h : s.Closed) : ClosedTables s.extent s.symbols s.types :=
  have h := within_session.1 h
  ⟨rfl, rfl, rfl, h.1, h.2.1⟩

/-- The symbol table is replaced by a larger one. -/
theorem withSymbols (h : s.Closed) {symbols : SymbolTable}
    (hle : s.extent ≤ { s with symbols : Session }.extent)
    (hs : Within { s with symbols : Session }.extent symbols) :
    s.ClosedBeyond { s with symbols } := by
  obtain ⟨-, htypes, hpackage, hmemo, hpending⟩ := within_session.1 h
  exact ⟨hle, within_session.2
    ⟨hs, htypes.mono hle, hpackage.mono hle, hmemo.mono hle, hpending.mono hle⟩⟩

/-- The type table is replaced by a larger one. -/
theorem withTypes (h : s.Closed) {types : TypeTable}
    (hle : s.types.entries.size ≤ types.entries.size)
    (ht : Within { s with types : Session }.extent types.entries) :
    s.ClosedBeyond { s with types } := by
  obtain ⟨hsymbols, htypes, hpackage, hmemo, hpending⟩ := within_session.1 h
  have hle' : s.extent ≤ { s with types : Session }.extent := ⟨Nat.le_refl _, Nat.le_refl _, hle⟩
  exact ⟨hle', within_session.2 ⟨hsymbols.mono hle', within_typeTable.2
    ⟨(within_typeTable.1 htypes).1.mono hle', ht⟩, hpackage.mono hle', hmemo.mono hle',
      hpending.mono hle'⟩⟩

theorem package (h : s.Closed) : Within s.extent s.package := (within_session.1 h).2.2.1

theorem memo (h : s.Closed) : Within s.extent s.memo := (within_session.1 h).2.2.2.1

theorem pending (h : s.Closed) : Within s.extent s.pending := (within_session.1 h).2.2.2.2

/-- The package is replaced. -/
theorem withPackage (h : s.Closed) {package : Package} (hp : Within s.extent package) :
    s.ClosedBeyond { s with package } :=
  ⟨s.extent.le_refl, within_session.2 ⟨h.tables.symbols, h.tables.types, hp, h.memo, h.pending⟩⟩

/-- What is remembered is replaced. -/
theorem withMemo (h : s.Closed) {memo : CloneMap} (hm : Within s.extent memo) :
    s.ClosedBeyond { s with memo } :=
  ⟨s.extent.le_refl, within_session.2 ⟨h.tables.symbols, h.tables.types, h.package, hm, h.pending⟩⟩

/-- The unfinished clones are replaced. -/
theorem withPending (h : s.Closed) {pending : CloneMap} (hp : Within s.extent pending) :
    s.ClosedBeyond { s with pending } :=
  ⟨s.extent.le_refl, within_session.2 ⟨h.tables.symbols, h.tables.types, h.package, h.memo, hp⟩⟩

end Closed

end Session

namespace Synth

variable {α β ι : Type} [HasHandles α] [HasHandles β] {b : Extent} {x : Synth α} {a : α}

/-- In a closed session of this extent, the operation leaves a closed session, and a result within
it unless it stops, and it does not stop at the end of a table. -/
def Secure (b : Extent) (x : Synth α) : Prop :=
  ∀ s : Session, s.extent = b → s.Closed →
    Ends x s (fun a t => s.ClosedBeyond t ∧ Within t.extent a)
      fun e t => s.ClosedBeyond t ∧ e ≠ .dangling

/-- In a closed session of this extent, the operation changes nothing, gives back what is within the
extent, and does not stop at the end of a table. -/
def Reads (b : Extent) (x : Synth α) : Prop :=
  ∀ s : Session, s.extent = b → s.Closed →
    Ends x s (fun a t => t = s ∧ Within b a) fun e t => t = s ∧ e ≠ .dangling

/-! ## Rules -/

theorem Reads.secure (h : Reads b x) : Secure b x := by
  intro s hs hclosed
  refine (h s hs hclosed).imp ?_ ?_
  · rintro a _ ⟨rfl, ha⟩
    exact ⟨hclosed.beyond, hs ▸ ha⟩
  · rintro e _ ⟨rfl, he⟩
    exact ⟨hclosed.beyond, he⟩

theorem reads_pure (h : Within b a) : Reads b (pure a : Synth α) := fun _ _ _ => ⟨rfl, h⟩

theorem reads_fail (f : Fault) : Reads b (fail f : Synth α) := fun _ _ _ => ⟨rfl, Stop.noConfusion⟩

theorem secure_pure (h : Within b a) : Secure b (pure a : Synth α) := (reads_pure h).secure

theorem secure_fail (f : Fault) : Secure b (fail f : Synth α) := (reads_fail f).secure

theorem secure_unending : Secure b (stop .unending : Synth α) :=
  fun _ _ h => ⟨h.beyond, Stop.noConfusion⟩

/-- What comes after a reading begins with the same extent. -/
theorem Reads.bind_reads {f : α → Synth β} (hx : Reads b x)
    (hf : ∀ a, Within b a → Reads b (f a)) : Reads b (x >>= f) := by
  intro s hs hclosed
  refine ends_bind.2 ((hx s hs hclosed).imp ?_ fun _ _ h => h)
  rintro a _ ⟨rfl, ha⟩
  exact hf a ha _ hs hclosed

theorem Reads.bind {f : α → Synth β} (hx : Reads b x) (hf : ∀ a, Within b a → Secure b (f a)) :
    Secure b (x >>= f) := by
  intro s hs hclosed
  refine ends_bind.2 ((hx s hs hclosed).imp ?_ ?_)
  · rintro a _ ⟨rfl, ha⟩
    exact hf a ha _ hs hclosed
  · rintro e _ ⟨rfl, he⟩
    exact ⟨hclosed.beyond, he⟩

/-- What comes after a write begins with the extent that the write has left. -/
theorem Secure.bind {f : α → Synth β} (hx : Secure b x)
    (hf : ∀ a b', b ≤ b' → Within b' a → Secure b' (f a)) : Secure b (x >>= f) := by
  rintro s rfl hclosed
  refine ends_bind.2 ((hx s rfl hclosed).imp ?_ fun _ _ h => h)
  rintro a t ⟨ht, ha⟩
  refine (hf a t.extent ht.extent ha t rfl ht.closed).imp ?_ ?_
  · exact fun c u ⟨hu, hc⟩ => ⟨ht.trans hu, hc⟩
  · exact fun e u ⟨hu, he⟩ => ⟨ht.trans hu, he⟩

theorem Secure.map {f : α → β} (hx : Secure b x) (hf : ∀ b' a, Within b' a → Within b' (f a)) :
    Secure b (f <$> x) := by
  intro s hs hclosed
  refine ends_map.2 ((hx s hs hclosed).imp ?_ fun _ _ h => h)
  exact fun a t ⟨ht, ha⟩ => ⟨ht, hf _ a ha⟩

theorem secure_mapM {f : ι → Synth α} {l : List ι}
    (hf : ∀ i ∈ l, ∀ b', b ≤ b' → Secure b' (f i)) : Secure b (l.mapM f) := by
  rintro s rfl hclosed
  refine ends_mapM (I := fun _ as (t : Session) => s.ClosedBeyond t ∧ Within t.extent as)
    ⟨hclosed.beyond, within_nil⟩ ?_
  rintro pre as i post t rfl ⟨ht, has⟩
  refine (hf i (by simp) t.extent ht.extent t rfl ht.closed).imp ?_ ?_
  · rintro a u ⟨hu, ha⟩
    refine ⟨ht.trans hu, within_list.2 fun c hc => ?_⟩
    rw [List.mem_append, List.mem_singleton] at hc
    rcases hc with hc | rfl
    · exact (within_list.1 has c hc).mono hu.extent
    · exact ha
  · exact fun e u ⟨hu, he⟩ => ⟨ht.trans hu, he⟩

/-- A mark is within as long as it is there, and goes away. -/
theorem Secure.whilePending {source clone : TypeId} (hx : Secure b x) (hsource : Within b source)
    (hclone : Within b clone) : Secure b (whilePending source clone x) := by
  rintro s rfl hclosed
  have hmark := hclosed.withPending (hclosed.pending.insert hsource hclone)
  refine ends_whilePending.2 ((hx { s with pending := s.pending.insert source clone } rfl
    hmark.closed).imp ?_ ?_)
  · exact fun a t ⟨ht, ha⟩ =>
      ⟨(hmark.trans ht).trans (ht.closed.withPending (ht.closed.pending.erase source)), ha⟩
  · exact fun e t ⟨ht, he⟩ =>
      ⟨(hmark.trans ht).trans (ht.closed.withPending (ht.closed.pending.erase source)), he⟩

/-! ## Reading -/

/-- Whatever is sound to read off closed tables may be read off a closed session. -/
theorem reads_reading {read : Session → Except Stop α}
    (h : ∀ s : Session, s.extent = b → s.Closed → Sound b (read s)) : Reads b (reading read) := by
  intro s hs hclosed
  obtain ⟨hok, herror⟩ := sound_iff.1 (h s hs hclosed)
  refine ends_reading.2 ⟨fun a ha => ⟨rfl, hok a ha⟩, ?_⟩
  rintro e he
  exact ⟨rfl, fun hdangling => herror (hdangling ▸ he)⟩

theorem reads_of_tables {read : Session → Except Stop α}
    (h : ∀ s : Session, ClosedTables b s.symbols s.types → Sound b (read s)) :
    Reads b (reading read) :=
  reads_reading fun s hs hclosed => h s (hs ▸ hclosed.tables)

theorem reads_symbol {y : SymbolId} (hy : Within b y) : Reads b (symbol y) :=
  reads_of_tables fun _ h => sound_symbol h hy

theorem reads_entry {ty : TypeId} (hty : Within b ty) : Reads b (entry ty) :=
  reads_of_tables fun _ h => sound_type h hty

theorem reads_implied {ty : TypeId} (hty : Within b ty) : Reads b (implied ty) :=
  reads_of_tables fun _ h => sound_implied h hty

theorem reads_isReadonly {ty : TypeId} (hty : Within b ty) : Reads b (isReadonly ty) :=
  reads_of_tables fun _ h => sound_isReadonly h hty

theorem reads_packageId : Reads b packageId :=
  reads_reading fun s _ _ => within_packageId s.package.id

theorem reads_qualifierFor (target : PackageId) : Reads b (qualifierFor target) :=
  reads_reading fun s _ _ => within_string (s.package.qualifierFor none target)

theorem reads_symbolOf {ty : TypeId} (hty : Within b ty) : Reads b (symbolOf ty) := by
  unfold symbolOf
  refine (reads_entry hty).bind_reads fun e he => ?_
  split
  · rename_i y hy
    exact reads_pure (within_some.1 (hy ▸ (within_typeEntry.1 he).2))
  · exact reads_fail _

theorem reads_typeOf {y : SymbolId} (hy : Within b y) : Reads b (typeOf y) := by
  unfold typeOf
  refine (reads_symbol hy).bind_reads fun named hnamed => ?_
  split
  · rename_i ty hty
    exact reads_pure (within_some.1 (hty ▸ (within_declaration.1 (within_symbol.1 hnamed).1).1))
  · exact reads_fail _

theorem reads_nameOf {ty : TypeId} (hty : Within b ty) : Reads b (nameOf ty) := by
  unfold nameOf
  refine (reads_symbolOf hty).bind_reads fun y hy => (reads_symbol hy).bind_reads fun named _ => ?_
  dsimp only
  split
  · exact reads_fail _
  · exact reads_pure (within_string _)

theorem reads_kindOf {ty : TypeId} (hty : Within b ty) : Reads b (kindOf ty) := by
  unfold kindOf
  refine (reads_entry hty).bind_reads fun e _ => ?_
  split
  · exact reads_pure (within_structureKind _)
  · exact reads_fail _

theorem reads_fieldsOf {ty : TypeId} (hty : Within b ty) : Reads b (fieldsOf ty) := by
  unfold fieldsOf
  refine (reads_entry hty).bind_reads fun e he => ?_
  split
  · rename_i fields hfields
    exact reads_pure ((within_typeEntry.1 he).1.fields? hfields)
  · exact reads_fail _

theorem reads_requireRecord {ty : TypeId} (hty : Within b ty) : Reads b (requireRecord ty) := by
  unfold requireRecord
  refine (reads_entry hty).bind_reads fun e _ => ?_
  split
  · exact reads_pure (within_unit _)
  · exact reads_fail _

theorem reads_requireObject {ty : TypeId} (hty : Within b ty) : Reads b (requireObject ty) := by
  unfold requireObject
  refine (reads_entry hty).bind_reads fun e _ => ?_
  split
  · exact reads_pure (within_unit _)
  · exact reads_fail _

/-! ## Writing -/

section Writing

variable {y : SymbolId} {ty variant : TypeId} {kind : SymbolKind} {d : Declaration} {e : TypeEntry}

/-- **A new symbol is the first one beyond the old ones.** -/
theorem secure_addSymbol (hkind : Within b kind) (hd : Within b d) :
    Secure b (addSymbol kind d) := by
  rintro s rfl hclosed
  have hle : s.extent ≤ { s with symbols := (s.symbols.add kind d).2 : Session }.extent :=
    ⟨by simp [Session.extent, SymbolTable.add], Nat.le_refl _, Nat.le_refl _⟩
  have hid : Within { s with symbols := (s.symbols.add kind d).2 : Session }.extent
      (s.symbols.add kind d).1 := by
    simp [Session.extent, SymbolTable.add]
  obtain ⟨hsymbols, hscopes⟩ := within_symbolTable.1 hclosed.tables.symbols
  refine ends_addSymbol.2 ⟨hclosed.withSymbols hle (within_symbolTable.2 ⟨?_, hscopes.mono hle⟩),
    hid⟩
  exact (hsymbols.mono hle).push (within_symbol.2 ⟨hd.mono hle, hid, hkind.mono hle, within_none⟩)

/-- A change of the symbol table leaves a closed session if it is sound and adds nothing. -/
theorem secure_onSymbols {change : SymbolTable → Except Stop SymbolTable}
    (hsound : ∀ S T, ClosedTables b S T → Sound b (change S))
    (hsize : ∀ S S', change S = .ok S' →
      S'.symbols.size = S.symbols.size ∧ S'.scopes.size = S.scopes.size) :
    Secure b (onSymbols change) := by
  rintro s rfl hclosed
  obtain ⟨hok, herror⟩ := sound_iff.1 (hsound _ _ hclosed.tables)
  refine ends_onSymbols.2 ⟨fun symbols hs => ⟨?_, within_unit _⟩, fun e he => ⟨hclosed.beyond, ?_⟩⟩
  · have hext : { s with symbols : Session }.extent = s.extent := by
      simp [Session.extent, hsize _ _ hs]
    exact hclosed.withSymbols (hext ▸ s.extent.le_refl) (hext ▸ hok symbols hs)
  · exact fun hdangling => herror (hdangling ▸ he)

/-- A symbol is changed in place. -/
theorem secure_changeSymbol {f : Symbol → Symbol} (hy : Within b y)
    (hf : ∀ named, Within b named → Within b (f named)) : Secure b (changeSymbol y f) := by
  refine secure_onSymbols (fun S T h => ?_) fun S S' h => ?_
  · refine (sound_symbol h hy).bind fun named hnamed => ?_
    obtain ⟨hsymbols, hscopes⟩ := within_symbolTable.1 h.symbols
    exact sound_pure (within_symbolTable.2 ⟨hsymbols.setIfInBounds (hf named hnamed) _, hscopes⟩)
  · obtain ⟨named, -, rfl⟩ := SymbolTable.change_eq_ok h
    simp

theorem secure_changeTypeLinks {f : TypeLinks → TypeLinks} (hy : Within b y) (role : SymbolRole)
    (hf : ∀ info, Within b info → Within b (f info)) : Secure b (changeTypeLinks y role f) := by
  unfold changeTypeLinks
  refine (reads_symbol hy).bind fun _ _ => ?_
  split
  · exact secure_changeSymbol hy fun named hnamed => hnamed.mapTypeLinks hf
  · exact secure_fail _

/-- **A new scope is the first one beyond the old ones.** -/
theorem secure_openScope (hy : Within b y) : Secure b (openScope y) := by
  rintro s rfl hclosed
  obtain ⟨named, hfind, hnamed⟩ := hclosed.tables.exists_symbol hy
  refine (ends_of_ok (openScope_eq hfind)).2 ?_
  have hle : s.extent ≤ { s with symbols :=
      { symbols := s.symbols.symbols.setIfInBounds y.index
          { named with scope := some ⟨s.symbols.scopes.size⟩ }
        scopes := s.symbols.scopes.push { id := ⟨s.symbols.scopes.size⟩, owner := y } } :
          Session }.extent :=
    ⟨by simp [Session.extent], by simp [Session.extent], Nat.le_refl _⟩
  have hid : Within { s with symbols :=
      { symbols := s.symbols.symbols.setIfInBounds y.index
          { named with scope := some ⟨s.symbols.scopes.size⟩ }
        scopes := s.symbols.scopes.push { id := ⟨s.symbols.scopes.size⟩, owner := y } } :
          Session }.extent (ScopeId.mk s.symbols.scopes.size) := by
    simp [Session.extent]
  obtain ⟨hsymbols, hscopes⟩ := within_symbolTable.1 hclosed.tables.symbols
  obtain ⟨hd, hself, hkind, -⟩ := within_symbol.1 (hnamed.mono hle)
  refine ⟨hclosed.withSymbols hle (within_symbolTable.2 ⟨?_, ?_⟩), hid⟩
  · refine Within.setIfInBounds (hsymbols.mono hle) ?_ _
    exact within_symbol.2 ⟨hd, hself, hkind, within_some.2 hid⟩
  · exact (hscopes.mono hle).push (within_scope.2 ⟨hid, hy.mono hle, within_emptyMap⟩)

/-- **A name is bound in a scope that is there, or reported to be bound.** -/
theorem secure_defineAt {id : ScopeId} (hid : Within b id) (name : String) (hy : Within b y) :
    Secure b (defineAt id name y) := by
  refine secure_onSymbols (fun S T h => sound_define h hid name hy) fun S S' h => ?_
  obtain ⟨found, extended, -, -, rfl⟩ := SymbolTable.define_eq_ok h
  simp

theorem secure_define {owner : SymbolId} (howner : Within b owner) (name : String)
    (hy : Within b y) : Secure b (define owner name y) := by
  refine secure_onSymbols (fun S T h => sound_defineIn h howner name hy) fun S S' h => ?_
  obtain ⟨id, -, hdefine⟩ := SymbolTable.defineIn_eq_ok h
  obtain ⟨found, extended, -, -, rfl⟩ := SymbolTable.define_eq_ok hdefine
  simp

/-- **A new type is the first one beyond the old ones.** -/
theorem secure_addType (he : Within b e) : Secure b (addType e) := by
  rintro s rfl hclosed
  have hle : s.extent ≤ { s with types := (s.types.add e).2 : Session }.extent :=
    ⟨Nat.le_refl _, Nat.le_refl _, by simp [Session.extent, TypeTable.add]⟩
  obtain ⟨-, hentries⟩ := within_typeTable.1 hclosed.tables.types
  refine ends_addType.2 ⟨hclosed.withTypes hle.2.2 ((hentries.mono hle).push (he.mono hle)), ?_⟩
  simp [Session.extent, TypeTable.add]

/-- A type is changed in place. -/
theorem secure_changeType {f : TypeEntry → TypeEntry} (hty : Within b ty)
    (hf : ∀ e, Within b e → Within b (f e)) : Secure b (changeType ty f) := by
  rintro s rfl hclosed
  obtain ⟨e, hfind, he⟩ := hclosed.tables.exists_type hty
  refine (ends_of_ok (changeType_eq hfind f)).2 ⟨?_, within_unit _⟩
  obtain ⟨-, hentries⟩ := within_typeTable.1 hclosed.tables.types
  refine hclosed.withTypes (by simp) ?_
  have hext : { s with types := ⟨s.types.entries.setIfInBounds ty.index (f e)⟩ : Session }.extent =
      s.extent := by
    simp [Session.extent]
  rw [hext]
  exact hentries.setIfInBounds (hf e he) _

theorem secure_nextName (family : NameFamily) (package : PackageId) :
    Secure b (nextName family package) :=
  fun _ _ h => ⟨⟨Extent.le_refl _, h⟩, within_string _⟩

/-! ## Registering and remembering -/

theorem secure_registerType {definition : TypeDefinition} (hd : Within b definition) :
    Secure b (registerType definition) := by
  rintro s rfl hclosed
  obtain ⟨hok, herror⟩ := sound_iff.1 (sound_registerType hclosed.package hd)
  refine ends_registerType.2 ⟨fun n package h => ?_, fun e h => ⟨hclosed.beyond, ?_⟩⟩
  · exact ⟨hclosed.withPackage (within_prod.1 (hok _ h)).2, within_nat _⟩
  · exact fun hdangling => herror (hdangling ▸ h)

theorem secure_registerClass {definition : ClassDefinition} (hd : Within b definition) :
    Secure b (registerClass definition) := by
  rintro s rfl hclosed
  obtain ⟨hok, herror⟩ := sound_iff.1 (sound_registerClass hclosed.package hd)
  refine ends_registerClass.2 ⟨fun n package h => ?_, fun e h => ⟨hclosed.beyond, ?_⟩⟩
  · exact ⟨hclosed.withPackage (within_prod.1 (hok _ h)).2, within_nat _⟩
  · exact fun hdangling => herror (hdangling ▸ h)

theorem secure_remember (hty : Within b ty) (hvariant : Within b variant) :
    Secure b (remember ty variant) := by
  rintro s rfl hclosed
  exact ⟨hclosed.withMemo (hclosed.memo.insert hty hvariant), within_unit _⟩

end Writing

end Synth

end StructuralTypes
