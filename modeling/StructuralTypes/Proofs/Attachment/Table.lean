import StructuralTypes.Proofs.Growth

/-!
# Recorded initializers

The initializer of a structure is written down twice: the structure's symbol records it, and the
structure's current scope binds its name. `LinksBound` says that every record is borne out: the
scope binds the name to the function, the structure owns the function, and the function owns the
variable that it is called on.

What most writes do to the records is said by `Retains`. Two kinds of write are not of that sort: to
record another initializer, and to give a new scope to a symbol that records one.

Results:
* `Retains.set`, `Retains.add`, `Retains.define`: writes that leave the records in order.
* **`LinksBound.retain`**, **`LinksBound.record`**: what is in order stays so, and an initializer
  may be recorded once it is bound.
* `Overtaken.not_linksBound`: a scope that binds new symbols only bears no old record out.
-/

namespace StructuralTypes

namespace Symbol

/-- The initializer that the symbol of a named type records. -/
def initializer? (s : Symbol) : Option InitializerLink := s.typeLinks?.bind (·.initializer)

/-- The variable that a function is called on. -/
def receiver? (s : Symbol) : Option SymbolId := s.function?.bind (·.receiver)

theorem exists_kind_of_initializer? {s : Symbol} {link : InitializerLink}
    (h : s.initializer? = some link) :
    ∃ info, s.kind = .type info ∧ info.initializer = some link := by
  unfold initializer? typeLinks? at h
  split at h
  · exact ⟨_, ‹_›, h⟩
  · cases h

/-- The symbol of a named type with the initializer recorded; other symbols stay as they are. -/
def recording (link : InitializerLink) (s : Symbol) : Symbol :=
  s.mapTypeLinks fun info => { info with initializer := some link }

variable (s : Symbol) (f : TypeLinks → TypeLinks) (link : InitializerLink)

theorem mapTypeLinks_owner : (s.mapTypeLinks f).owner = s.owner := by
  unfold mapTypeLinks
  split <;> rfl

theorem mapTypeLinks_id : (s.mapTypeLinks f).id = s.id := by
  unfold mapTypeLinks
  split <;> rfl

theorem mapTypeLinks_name : (s.mapTypeLinks f).name = s.name := by
  unfold mapTypeLinks
  split <;> rfl

theorem mapTypeLinks_package : (s.mapTypeLinks f).package = s.package := by
  unfold mapTypeLinks
  split <;> rfl

theorem mapTypeLinks_scope : (s.mapTypeLinks f).scope = s.scope := by
  unfold mapTypeLinks
  split <;> rfl

theorem mapTypeLinks_receiver? : (s.mapTypeLinks f).receiver? = s.receiver? := by
  cases hkind : s.kind <;> simp [mapTypeLinks, receiver?, function?, hkind]

theorem mapFunction_id (g : FunctionSpec → FunctionSpec) : (s.mapFunction g).id = s.id := by
  unfold mapFunction
  split <;> rfl

theorem mapFunction_scope (g : FunctionSpec → FunctionSpec) :
    (s.mapFunction g).scope = s.scope := by
  unfold mapFunction
  split <;> rfl

theorem recording_owner : (s.recording link).owner = s.owner := s.mapTypeLinks_owner _

theorem recording_name : (s.recording link).name = s.name := s.mapTypeLinks_name _

theorem recording_scope : (s.recording link).scope = s.scope := s.mapTypeLinks_scope _

theorem recording_receiver? : (s.recording link).receiver? = s.receiver? :=
  s.mapTypeLinks_receiver? _

variable {s}

/-- A change of the links that keeps the initializer. -/
theorem mapTypeLinks_initializer? (hf : ∀ info, (f info).initializer = info.initializer) :
    (s.mapTypeLinks f).initializer? = s.initializer? := by
  cases hkind : s.kind <;> simp [mapTypeLinks, initializer?, typeLinks?, hkind, hf]

theorem recording_initializer? {info : TypeLinks} (h : s.kind = .type info) :
    (s.recording link).initializer? = some link := by
  simp [recording, mapTypeLinks, initializer?, typeLinks?, h]

/-- The symbol `s'` has what ties symbols together as `s` has it. -/
structure LinkedAs (s' s : Symbol) : Prop where
  /-- It is declared in the same symbol. -/
  owner : s'.owner = s.owner
  /-- It is called on the same variable. -/
  receiver : s'.receiver? = s.receiver?
  /-- It records the same initializer. -/
  initializer : s'.initializer? = s.initializer?
  /-- It has the same scope. -/
  scope : s'.scope = s.scope

theorem linkedAs_mapTypeLinks (hf : ∀ info, (f info).initializer = info.initializer) :
    (s.mapTypeLinks f).LinkedAs s :=
  ⟨s.mapTypeLinks_owner f, s.mapTypeLinks_receiver? f, mapTypeLinks_initializer? f hf,
    s.mapTypeLinks_scope f⟩

end Symbol

/-- A symbol of this kind records no initializer. -/
def SymbolKind.Unlinked (kind : SymbolKind) : Prop :=
  ∀ info, kind = .type info → info.initializer = none

theorem Symbol.initializer?_eq_none {s : Symbol} (h : s.kind.Unlinked) :
    s.initializer? = none := by
  cases hs : s.initializer? with
  | none => rfl
  | some link =>
    obtain ⟨info, hkind, hlink⟩ := exists_kind_of_initializer? hs
    simp [h info hkind] at hlink

namespace SymbolTable

variable {t u : SymbolTable} {x y : SymbolId} {named named' found : Symbol} {scope : Scope}
  {id : ScopeId} {link : InitializerLink} {name : String}

/-! ## Reading back -/

/-- After a symbol was changed, another one reads back as before. -/
theorem find_set_eq_ok_iff (h : t.find x = .ok named) {scopes : Array Scope} :
    ({ symbols := t.symbols.setIfInBounds x.index named', scopes } : SymbolTable).find y =
        .ok found ↔ if y = x then found = named' else t.find y = .ok found := by
  have hlt := (Array.getElem?_eq_some_iff.1 (find_eq_ok_iff.1 h)).1
  rw [find_eq_ok_iff]
  by_cases hy : y = x
  · subst hy
    rw [if_pos rfl, Array.getElem?_setIfInBounds_self_of_lt hlt, Option.some.injEq, eq_comm]
  · have hne : x.index ≠ y.index := fun heq => hy (congrArg SymbolId.mk heq.symm)
    rw [if_neg hy, Array.getElem?_setIfInBounds_ne hne, find_eq_ok_iff]

theorem lt_of_find (h : t.find x = .ok named) : x.index < t.symbols.size :=
  (Array.getElem?_eq_some_iff.1 (find_eq_ok_iff.1 h)).1

/-- A symbol that is there after an addition was there before, or is the new one. -/
theorem find_add_eq_ok {kind : SymbolKind} {d : Declaration}
    (h : (t.add kind d).2.find x = .ok found) :
    t.find x = .ok found ∨ found = { d with id := ⟨t.symbols.size⟩, kind } := by
  rw [find_eq_ok_iff] at h
  simp only [add, Array.getElem?_push] at h
  split at h
  · exact .inr (Option.some.inj h).symm
  · exact .inl (find_eq_ok_iff.2 h)

/-! ## Records -/

/-- The symbol `x` records the initializer. -/
def Records (t : SymbolTable) (x : SymbolId) (link : InitializerLink) : Prop :=
  ∃ named, t.find x = .ok named ∧ named.initializer? = some link

/-- The current scope of `x` binds the name to `y`. -/
def BindsTo (t : SymbolTable) (x : SymbolId) (name : String) (y : SymbolId) : Prop :=
  ∃ named id scope, t.find x = .ok named ∧ named.scope = some id ∧ t.findScope id = .ok scope ∧
    scope.get? name = some y

/-- `y` is a function that `x` owns, and it owns the variable that it is called on. -/
def Initializes (t : SymbolTable) (y x : SymbolId) : Prop :=
  ∃ f receiver r, t.find y = .ok f ∧ f.owner = some x ∧ f.receiver? = some receiver ∧
    t.find receiver = .ok r ∧ r.owner = some y

/-- **Every record of an initializer is borne out**: the scope of the symbol binds the initializer's
name to a function of the symbol's. -/
def LinksBound (t : SymbolTable) : Prop :=
  ∀ x link, t.Records x link → t.BindsTo x link.name link.symbol ∧ t.Initializes link.symbol x

/-- Without records there is nothing to be borne out. -/
theorem linksBound_of_forall_not (h : ∀ x link, ¬t.Records x link) : t.LinksBound :=
  fun x link hr => absurd hr (h x link)

/-- The table `u` has no records but those of `t`, and all that bears them out. -/
structure Retains (t u : SymbolTable) : Prop where
  /-- Symbols have the same owners, receivers and records; those with records also have the same
  scopes. -/
  symbol : ∀ x named, t.find x = .ok named → ∃ named', u.find x = .ok named' ∧
    named'.owner = named.owner ∧ named'.receiver? = named.receiver? ∧
      named'.initializer? = named.initializer? ∧
        (named.initializer?.isSome → named'.scope = named.scope)
  /-- What is bound stays bound. -/
  scope : ∀ id scope, t.findScope id = .ok scope → ∃ scope', u.findScope id = .ok scope' ∧
    ∀ name y, scope.get? name = some y → scope'.get? name = some y
  /-- Nothing else is recorded. -/
  records : ∀ x link, u.Records x link → t.Records x link

namespace Retains

/-- Symbols without a record and scopes are added. -/
theorem grow (hsymbols : Grows t.symbols u.symbols) (hscopes : Grows t.scopes u.scopes)
    (hadded : ∀ x found, u.find x = .ok found → t.find x = .ok found ∨ found.initializer? = none) :
    t.Retains u where
  symbol x named hx := ⟨named, find_mono hsymbols hx, rfl, rfl, rfl, fun _ => rfl⟩
  scope id scope hscope := ⟨scope, findScope_mono hscopes hscope, fun _ _ hy => hy⟩
  records x link := by
    rintro ⟨found, hfound, hlink⟩
    rcases hadded x found hfound with hold | hnone
    · exact ⟨found, hold, hlink⟩
    · simp [hnone] at hlink

/-- A symbol is changed in place, and scopes are added. -/
theorem set {scopes : Array Scope} (h : t.find x = .ok named) (hg : Grows t.scopes scopes)
    (howner : named'.owner = named.owner) (hreceiver : named'.receiver? = named.receiver?)
    (hrecord : named'.initializer? = named.initializer?)
    (hscope : named.initializer?.isSome → named'.scope = named.scope) :
    t.Retains { symbols := t.symbols.setIfInBounds x.index named', scopes } where
  symbol y found hfound := by
    by_cases hy : y = x
    · subst hy
      obtain rfl := Except.ok.inj (h.symm.trans hfound)
      exact ⟨named', (find_set_eq_ok_iff h).2 (by simp), howner, hreceiver, hrecord, hscope⟩
    · exact ⟨found, (find_set_eq_ok_iff h).2 (by simpa [hy] using hfound), rfl, rfl, rfl,
        fun _ => rfl⟩
  scope id scope hs := ⟨scope, findScope_mono hg hs, fun _ _ hy => hy⟩
  records y link := by
    rintro ⟨found, hfound, hlink⟩
    rw [find_set_eq_ok_iff h] at hfound
    split at hfound <;> rename_i hy
    · subst hy hfound
      exact ⟨named, h, hrecord ▸ hlink⟩
    · exact ⟨found, hfound, hlink⟩

/-- A symbol without a record is added. -/
theorem add (kind : SymbolKind) (d : Declaration) (hkind : kind.Unlinked) :
    t.Retains (t.add kind d).2 := by
  refine .grow (grows_add t kind d) (.refl _) fun x found hfound => ?_
  rcases find_add_eq_ok hfound with hold | rfl
  · exact .inl hold
  · exact .inr (Symbol.initializer?_eq_none hkind)

/-- A name is bound that was not bound. -/
theorem define (h : t.define id name y = .ok u) : t.Retains u := by
  obtain ⟨found, extended, hfound, hextended, rfl⟩ := define_eq_ok h
  obtain ⟨hnew, rfl⟩ := Scope.define_eq_ok_iff.1 hextended
  refine ⟨fun x named hx => ⟨named, hx, rfl, rfl, rfl, fun _ => rfl⟩, fun id' scope hscope => ?_,
    fun x link hr => hr⟩
  by_cases hid : id' = id
  · subst hid
    obtain rfl := Except.ok.inj (hfound.symm.trans hscope)
    refine ⟨_, findScope_set_self hfound _, fun name' y' hy' => ?_⟩
    have hne : name' ≠ name := by
      rintro rfl
      rw [← OrderedMap.get?_eq_none_iff] at hnew
      exact absurd (hnew.symm.trans hy') (by simp)
    unfold Scope.get? at hy' ⊢
    rw [OrderedMap.get?_insert, if_neg hne]
    exact hy'
  · refine ⟨scope, ?_, fun _ _ hy' => hy'⟩
    have hne : id.index ≠ id'.index := fun heq => hid (congrArg ScopeId.mk heq.symm)
    rw [findScope_eq_ok_iff] at hscope ⊢
    rw [Array.getElem?_setIfInBounds_ne hne]
    exact hscope

/-- A binding in the scope of a symbol with a record stays. -/
theorem bindsTo (h : t.Retains u) (hrecords : t.Records x link) (hb : t.BindsTo x name y) :
    u.BindsTo x name y := by
  obtain ⟨named, id, scope, hx, hid, hscope, hy⟩ := hb
  obtain ⟨found, hfound, hlink⟩ := hrecords
  obtain rfl := Except.ok.inj (hx.symm.trans hfound)
  obtain ⟨named', hx', -, -, -, hsame⟩ := h.symbol x named hx
  obtain ⟨scope', hscope', hkept⟩ := h.scope id scope hscope
  exact ⟨named', id, scope', hx', (hsame (by simp [hlink])).trans hid, hscope', hkept _ _ hy⟩

theorem initializes (h : t.Retains u) (hf : t.Initializes y x) : u.Initializes y x := by
  obtain ⟨f, receiver, r, hfind, howner, hreceiver, hr, hrowner⟩ := hf
  obtain ⟨f', hfind', howner', hreceiver', -⟩ := h.symbol y f hfind
  obtain ⟨r', hr', hrowner', -⟩ := h.symbol receiver r hr
  exact ⟨f', receiver, r', hfind', howner'.trans howner, hreceiver'.trans hreceiver, hr',
    hrowner'.trans hrowner⟩

end Retains

/-- **What is in order stays so.** -/
theorem LinksBound.retain (h : t.LinksBound) (hr : t.Retains u) : u.LinksBound := by
  intro x link hlink
  have hold := hr.records x link hlink
  obtain ⟨hb, hf⟩ := h x link hold
  exact ⟨hr.bindsTo hold hb, hr.initializes hf⟩

/-- **An initializer may be recorded once it is bound.** -/
theorem LinksBound.record {info : TypeLinks} (h : t.LinksBound) (hx : t.find x = .ok named)
    (hkind : named.kind = .type info) (hb : t.BindsTo x link.name link.symbol)
    (hf : t.Initializes link.symbol x) :
    ({ t with symbols := t.symbols.setIfInBounds x.index (named.recording link) } :
      SymbolTable).LinksBound := by
  -- the change is seen at `x` only, and there it is the record that differs
  have hread : ∀ z found, t.find z = .ok found → ∃ found',
      ({ t with symbols := t.symbols.setIfInBounds x.index (named.recording link) } :
        SymbolTable).find z = .ok found' ∧ found'.owner = found.owner ∧
          found'.receiver? = found.receiver? ∧ found'.scope = found.scope := by
    intro z found hz
    by_cases hzx : z = x
    · subst hzx
      obtain rfl := Except.ok.inj (hx.symm.trans hz)
      exact ⟨_, find_set_self hx _, named.recording_owner link, named.recording_receiver? link,
        named.recording_scope link⟩
    · exact ⟨found, (find_set_eq_ok_iff hx).2 (by simpa [hzx] using hz), rfl, rfl, rfl⟩
  have hborne : ∀ z (l : InitializerLink), t.BindsTo z l.name l.symbol ∧ t.Initializes l.symbol z →
      ({ t with symbols := t.symbols.setIfInBounds x.index (named.recording link) } :
          SymbolTable).BindsTo z l.name l.symbol ∧
        ({ t with symbols := t.symbols.setIfInBounds x.index (named.recording link) } :
          SymbolTable).Initializes l.symbol z := by
    rintro z l ⟨⟨found, id, scope, hz, hid, hs, hget⟩, f, receiver, r, hfind, hfo, hfr, hr, hro⟩
    obtain ⟨found', hz', -, -, hsame⟩ := hread z found hz
    obtain ⟨f', hfind', hfo', hfr', -⟩ := hread _ f hfind
    obtain ⟨r', hr', hro', -, -⟩ := hread _ r hr
    exact ⟨⟨found', id, scope, hz', hsame.trans hid, hs, hget⟩, f', receiver, r', hfind',
      hfo'.trans hfo, hfr'.trans hfr, hr', hro'.trans hro⟩
  rintro z l ⟨found, hfound, hl⟩
  rw [find_set_eq_ok_iff hx] at hfound
  split at hfound <;> rename_i hz
  · subst hz hfound
    rw [Symbol.recording_initializer? link hkind] at hl
    obtain rfl := Option.some.inj hl
    exact hborne z link ⟨hb, hf⟩
  · exact hborne z l (h z l ⟨found, hfound, hl⟩)

/-! ## Records that are not borne out -/

/-- The symbol `x` records the initializer, but its scope binds symbols from the `n`-th one on only,
and the initializer is older. -/
structure Overtaken (x : SymbolId) (link : InitializerLink) (n : Nat) (t : SymbolTable) : Prop where
  /-- The initializer is older. -/
  old : link.symbol.index < n
  /-- There are as many symbols. -/
  size : n ≤ t.symbols.size
  /-- It is recorded, and the scope is new. -/
  scope : ∃ named id scope, t.find x = .ok named ∧ named.initializer? = some link ∧
    named.scope = some id ∧ t.findScope id = .ok scope ∧
      ∀ name y, scope.get? name = some y → n ≤ y.index

theorem Overtaken.not_linksBound {n : Nat} (h : Overtaken x link n t) : ¬t.LinksBound := by
  intro hbound
  obtain ⟨named, id, scope, hx, hlink, hid, hscope, hnew⟩ := h.scope
  obtain ⟨⟨named', id', scope', hx', hid', hscope', hget⟩, -⟩ := hbound x link ⟨named, hx, hlink⟩
  obtain rfl := Except.ok.inj (hx.symm.trans hx')
  obtain rfl := Option.some.inj (hid.symm.trans hid')
  obtain rfl := Except.ok.inj (hscope.symm.trans hscope')
  exact absurd (hnew _ _ hget) (Nat.not_le_of_lt h.old)

/-! ## What building fields does -/

/-- Work on members leaves `I` in order, which holds of tables of `n` symbols or more: symbols
without records are added and then bound, and links of another sort are changed. -/
structure Robust (n : Nat) (I : SymbolTable → Prop) : Prop where
  /-- There are enough symbols. -/
  size : ∀ t, I t → n ≤ t.symbols.size
  /-- A symbol is added. -/
  add : ∀ t (kind : SymbolKind) d, kind.Unlinked → I t → I (t.add kind d).2
  /-- A name is bound to a symbol that was added. -/
  define : ∀ t u id name y, n ≤ y.index → t.define id name y = .ok u → I t → I u
  /-- A symbol is changed, but not in what it is linked to. -/
  set : ∀ t x named named', t.find x = .ok named → named'.LinkedAs named → I t →
    I { t with symbols := t.symbols.setIfInBounds x.index named' }

theorem robust_linksBound : Robust 0 LinksBound where
  size _ _ := Nat.zero_le _
  add _ kind d hkind h := h.retain (.add kind d hkind)
  define _ _ _ _ _ _ hdefine h := h.retain (.define hdefine)
  set _ _ _ _ hx hl h :=
    h.retain (.set hx (.refl _) hl.owner hl.receiver hl.initializer fun _ => hl.scope)

theorem robust_overtaken (x : SymbolId) (link : InitializerLink) (n : Nat) :
    Robust n (Overtaken x link n) where
  size _ h := h.size
  add t kind d _ h := by
    obtain ⟨named, id, scope, hx, hlink, hid, hscope, hnew⟩ := h.scope
    exact ⟨h.old, Nat.le_trans h.size (grows_add t kind d).size_le, named, id, scope,
      find_add_of_find hx kind d, hlink, hid, hscope, hnew⟩
  define t u id name y hy hdefine h := by
    obtain ⟨found, extended, hfound, hextended, rfl⟩ := define_eq_ok hdefine
    obtain ⟨-, rfl⟩ := Scope.define_eq_ok_iff.1 hextended
    obtain ⟨named, id', scope, hx, hlink, hid, hscope, hnew⟩ := h.scope
    by_cases heq : id' = id
    · subst heq
      obtain rfl := Except.ok.inj (hfound.symm.trans hscope)
      refine ⟨h.old, h.size, named, id', _, hx, hlink, hid, findScope_set_self hfound _, ?_⟩
      intro name' y' hy'
      unfold Scope.get? at hy'
      rw [OrderedMap.get?_insert] at hy'
      split at hy'
      · exact Option.some.inj hy' ▸ hy
      · exact hnew name' y' hy'
    · have hne : id.index ≠ id'.index := fun h => heq (congrArg ScopeId.mk h.symm)
      refine ⟨h.old, h.size, named, id', scope, hx, hlink, hid, ?_, hnew⟩
      rw [findScope_eq_ok_iff] at hscope ⊢
      rw [Array.getElem?_setIfInBounds_ne hne]
      exact hscope
  set t y named named' hy hl h := by
    obtain ⟨found, id, scope, hx, hlink, hid, hscope, hnew⟩ := h.scope
    refine ⟨h.old, by simpa using h.size, ?_⟩
    by_cases hxy : x = y
    · subst hxy
      obtain rfl := Except.ok.inj (hx.symm.trans hy)
      exact ⟨named', id, scope, find_set_self hy named', hl.initializer.trans hlink,
        hl.scope.trans hid, hscope, hnew⟩
    · exact ⟨found, id, scope, (find_set_eq_ok_iff hy).2 (by simpa [hxy] using hx), hlink, hid,
        hscope, hnew⟩

end SymbolTable

end StructuralTypes
