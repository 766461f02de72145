import StructuralTypes.Proofs.Attachment.Run
import StructuralTypes.Proofs.Command
import StructuralTypes.Proofs.Population.Structure

/-!
# All that an initializer consists of

A structure that gets its initializer gets a function, with a variable that it is called on and a
scope for that variable, and with a function type that has a symbol of its own. These refer to each
other, and the symbol of the structure, its scope and its node refer to the function. So all of it
is said at once, `Attached`, table by table: what is not mentioned there is as it was.

The name of the function is made of the name of the type and of the suffix. So a structure gets an
initializer of one suffix once: when it is to get a second one, the name is taken.

Results:
* `Synth.attachInitializer_eq`, `Synth.attachInitializer_taken`: a structure gets its initializer
  unless its scope has the name already.
* `exists_attached`: what gets an initializer gets this one.
* `Attached.attachInitializer_again`: from then on the name is taken.
* **`attachInitializer_attaches`**: both at once.
-/

namespace StructuralTypes

/-- The node is of the structure `ty`, whose initializer the symbol `owner` gets: the symbol of the
node or, if it has none, that of the type. -/
def StructureNode.Presents (n : StructureNode) (T : TypeTable) (ty : TypeId) (owner : SymbolId) :
    Prop :=
  n.ty = some ty ∧ (n.symbol = some owner ∨
    n.symbol = none ∧ ∃ e, T.find ty = .ok e ∧ e.symbol = some owner)

theorem TypeNode.structure?_withStructure {tree : TypeNode} {n : StructureNode}
    (h : tree.structure? = some n) (n' : StructureNode) :
    (tree.withStructure n').structure? = some n' := by
  cases tree <;> first | rfl | cases h

/-- The symbol of the type has this name, which is not empty. -/
def SymbolTable.Calls (S : SymbolTable) (T : TypeTable) (ty : TypeId) (name : String) : Prop :=
  name ≠ "" ∧ ∃ e y a, T.find ty = .ok e ∧ e.symbol = some y ∧ S.find y = .ok a ∧ a.name = name

namespace Synth

open SymbolTable

variable {ctx : Context} {node : StructureNode} {ty : TypeId} {owner : SymbolId} {s t : Session}
  {name : String} {holder : Symbol} {info : TypeLinks} {id : ScopeId} {scope : Scope}

/-- The name of a type is that of its symbol. -/
theorem nameOf_eq_ok_iff : nameOf ty s = .ok name t ↔ t = s ∧ s.symbols.Calls s.types ty name := by
  unfold nameOf
  simp only [bind_eq_ok_iff, symbolOf_eq_ok_iff, symbol, reading_eq_ok_iff]
  constructor
  · rintro ⟨y, _, ⟨rfl, e, he, hy⟩, a, _, ⟨ha, rfl⟩, h⟩
    split at h
    · cases h
    · rename_i hempty
      cases h
      exact ⟨rfl, fun h => hempty (String.isEmpty_iff.2 h), e, y, a, he, hy, ha, rfl⟩
  · rintro ⟨rfl, hne, e, y, a, he, hy, ha, rfl⟩
    refine ⟨y, t, ⟨rfl, e, he, hy⟩, a, t, ⟨ha, rfl⟩, ?_⟩
    rw [if_neg fun h => hne (String.isEmpty_iff.1 h)]
    rfl

/-- The symbol that gets the initializer is found. -/
theorem structureSymbol_eq_ok_iff (hty : node.ty = some ty) :
    (node.symbol.elim (symbolOf ty) pure : Synth SymbolId) s = .ok owner t ↔
      t = s ∧ node.Presents s.types ty owner := by
  unfold StructureNode.Presents
  cases node.symbol with
  | none =>
    show symbolOf ty s = _ ↔ _
    rw [symbolOf_eq_ok_iff]
    simp [hty]
  | some y =>
    show EStateM.Result.ok y s = _ ↔ _
    simp [hty, eq_comm, and_comm]

/-! ## The initializer of a structure -/

/-- How the initializer of a structure is made. -/
def attachmentPlan (ctx : Context) (node : StructureNode) (ty : TypeId) (owner : SymbolId) :
    InitializerPlan :=
  { ty, owner, suffix := ctx.settings.initializerSuffix
    returns := ctx.settings.initializerReturns.getD Builtin.nil, span := node.span }

/-- The name of the function. -/
def initializerName (ctx : Context) (name : String) : String :=
  attachedName name ctx.settings.initializerSuffix

/-- The record of the function at the symbol of the structure. -/
def initializerLink (s : Session) (ctx : Context) (node : StructureNode) (name : String) :
    InitializerLink :=
  { name := initializerName ctx name, symbol := ⟨s.symbols.symbols.size + 1⟩
    ty := ⟨s.types.entries.size⟩, span := node.span }

/-- The scope of a structure, with the name of its initializer at the end. -/
def attachedScope (s : Session) (ctx : Context) (name : String) (scope : Scope) : Scope :=
  { scope with
    bindings := scope.bindings.insert (initializerName ctx name) ⟨s.symbols.symbols.size + 1⟩ }

/-- The session in which the symbol `holder` of a structure, whose scope is the one with this
handle, has got the initializer. -/
def attachedSession (s : Session) (ctx : Context) (node : StructureNode) (ty : TypeId)
    (owner : SymbolId) (name : String) (holder : Symbol) (id : ScopeId) (scope : Scope) : Session :=
  let plan := attachmentPlan ctx node ty owner
  let link := initializerLink s ctx node name
  { initializerSession s ctx plan name with
    symbols :=
      { symbols :=
          (((s.symbols.symbols.setIfInBounds owner.index (holder.recording link)).push
            (receiverSymbol s ctx plan)).push (initializerSymbol s plan name)).push
              (initializerTypeSymbol s plan name)
        scopes := (s.symbols.scopes.setIfInBounds id.index (attachedScope s ctx name scope)).push
          (initializerScope s ctx) } }

/-- The symbol of the structure comes before those that are made for the initializer. -/
theorem setIfInBounds_made {symbols : Array Symbol} {i : Nat} (hi : i < symbols.size)
    (x y z holder : Symbol) : (((symbols.push x).push y).push z).setIfInBounds i holder =
      (((symbols.setIfInBounds i holder).push x).push y).push z := by
  have hx : i < (symbols.push x).size := by
    rw [Array.size_push]
    exact Nat.lt_succ_of_lt hi
  have hy : i < ((symbols.push x).push y).size := by
    rw [Array.size_push]
    exact Nat.lt_succ_of_lt hx
  rw [Grows.setIfInBounds_push_of_lt hy, Grows.setIfInBounds_push_of_lt hx,
    Grows.setIfInBounds_push_of_lt hi]

section Attach

variable (hnode : node.Presents s.types ty owner) (hname : s.symbols.Calls s.types ty name)
include hnode hname

/-- The initializer of a type with a name is made first, and then it is bound and recorded. -/
theorem attachInitializer_of_calls :
    attachInitializer ctx node s = (do
        define owner (initializerName ctx name) ⟨s.symbols.symbols.size + 1⟩
        changeTypeLinks owner .initializerHolder fun info =>
          { info with initializer := some (initializerLink s ctx node name) }
        return (⟨s.symbols.symbols.size + 1⟩, { node with
          initializer := some (initializerNode s ctx (attachmentPlan ctx node ty owner) name) }) :
        Synth (SymbolId × StructureNode))
      (initializerSession s ctx (attachmentPlan ctx node ty owner) name) := by
  have howner := (structureSymbol_eq_ok_iff hnode.1).2 ⟨rfl, hnode⟩
  have hname' : nameOf (attachmentPlan ctx node ty owner).ty s = .ok name s :=
    nameOf_eq_ok_iff.2 ⟨rfl, hname⟩
  have hmade := createInitializer_eq ctx hname'
  unfold attachInitializer
  rw [hnode.1]
  dsimp only
  rw [bind_of_ok howner]
  exact (bind_of_ok hmade).trans rfl

variable (hfind : s.symbols.find owner = .ok holder) (hid : holder.scope = some id)
  (hscope : s.symbols.findScope id = .ok scope)
include hfind hid hscope

/-- **It gets none** if its scope has the name. -/
theorem attachInitializer_taken {existing : SymbolId}
    (htaken : (initializerName ctx name, existing) ∈ scope.bindings.entries) :
    attachInitializer ctx node s =
      .error (Fault.nameTaken (initializerName ctx name) scope.owner existing)
        (initializerSession s ctx (attachmentPlan ctx node ty owner) name) := by
  obtain ⟨hsymbols, hscopes, -⟩ :=
    grows_initializerSession s ctx (attachmentPlan ctx node ty owner) name
  rw [attachInitializer_of_calls hnode hname]
  exact bind_of_error (define_eq_nameTaken (find_mono hsymbols hfind) hid
    (findScope_mono hscopes hscope) htaken)

/-- **A structure gets its initializer** if its scope does not have the name yet. -/
theorem attachInitializer_eq (hnew : initializerName ctx name ∉ scope.bindings.keys)
    (hkind : holder.kind = .type info) :
    attachInitializer ctx node s =
      .ok (⟨s.symbols.symbols.size + 1⟩, { node with
          initializer := some (initializerNode s ctx (attachmentPlan ctx node ty owner) name) })
        (attachedSession s ctx node ty owner name holder id scope) := by
  obtain ⟨hsymbols, hscopes, -⟩ :=
    grows_initializerSession s ctx (attachmentPlan ctx node ty owner) name
  have hlt := lt_of_find hfind
  have hidlt := (Array.getElem?_eq_some_iff.1 (findScope_eq_ok_iff.1 hscope)).1
  -- the name is bound in the scope, and then the function is recorded at the symbol
  let made := initializerSession s ctx (attachmentPlan ctx node ty owner) name
  have hfind' : made.symbols.find owner = .ok holder := find_mono hsymbols hfind
  have hscope' : made.symbols.findScope id = .ok scope := findScope_mono hscopes hscope
  let bound : Session :=
    { made with symbols :=
      { made.symbols with
        scopes := made.symbols.scopes.setIfInBounds id.index (attachedScope s ctx name scope) } }
  have hbound : define owner (initializerName ctx name) ⟨s.symbols.symbols.size + 1⟩ made =
      .ok () bound :=
    define_eq hfind' hid hscope' hnew
  have hrecorded : changeTypeLinks owner .initializerHolder
      (fun info => { info with initializer := some (initializerLink s ctx node name) }) bound =
        .ok () (attachedSession s ctx node ty owner name holder id scope) := by
    rw [changeTypeLinks_eq (s := bound) hfind' hkind]
    simp only [attachedSession, Symbol.recording, Symbol.mapTypeLinks, hkind, bound, made,
      initializerSession, setIfInBounds_made hlt, Grows.setIfInBounds_push_of_lt hidlt]
  rw [attachInitializer_of_calls hnode hname, bind_of_ok hbound, bind_of_ok hrecorded]
  rfl

end Attach

/-- Whatever gets an initializer is a structure whose type has a name. -/
theorem exists_calls_of_attachInitializer {r : SymbolId × StructureNode}
    (h : attachInitializer ctx node s = .ok r t) :
    ∃ ty owner name, node.Presents s.types ty owner ∧ s.symbols.Calls s.types ty name := by
  unfold attachInitializer at h
  cases hty : node.ty with
  | none =>
    rw [hty] at h
    cases h
  | some ty =>
    rw [hty] at h
    obtain ⟨owner, u, howner, hmade⟩ := bind_eq_ok_iff.1 h
    obtain ⟨rfl, hnode⟩ := (structureSymbol_eq_ok_iff hty).1 howner
    obtain ⟨f, v, hf, -⟩ := bind_eq_ok_iff.1 hmade
    unfold createInitializer at hf
    obtain ⟨_, w, hpackage, hnamed⟩ := bind_eq_ok_iff.1 hf
    obtain ⟨-, rfl⟩ := reading_eq_ok_iff.1 hpackage
    obtain ⟨name, x, hname, -⟩ := bind_eq_ok_iff.1 hnamed
    exact ⟨ty, owner, name, hnode, (nameOf_eq_ok_iff.1 hname).2⟩

theorem within_of_presents {b : Extent} (htables : ClosedTables b s.symbols s.types)
    (hin : Within b node) (h : node.Presents s.types ty owner) : Within b owner := by
  rcases h.2 with hsymbol | ⟨-, e, he, hsymbol⟩
  · exact within_some.1 (hsymbol ▸ (within_structureNode.1 hin).2.1)
  · exact htables.within_symbolOf he hsymbol

/-- **Its symbol can record an initializer, and has a scope in which the name is new.** -/
theorem exists_of_attachInitializer {b : Extent} {r : SymbolId × StructureNode}
    (htables : ClosedTables b s.symbols s.types) (hin : Within b node)
    (h : attachInitializer ctx node s = .ok r t) : ∃ ty owner name holder info id scope,
      node.Presents s.types ty owner ∧ s.symbols.Calls s.types ty name ∧
        s.symbols.find owner = .ok holder ∧ holder.kind = .type info ∧ holder.scope = some id ∧
          s.symbols.findScope id = .ok scope ∧
            initializerName ctx name ∉ scope.bindings.keys := by
  obtain ⟨ty, owner, name, hnode, hname⟩ := exists_calls_of_attachInitializer h
  obtain ⟨hsymbols, hscopes, -⟩ :=
    grows_initializerSession s ctx (attachmentPlan ctx node ty owner) name
  rw [attachInitializer_of_calls hnode hname] at h
  obtain ⟨⟨⟩, u, hdefine, h⟩ := bind_eq_ok_iff.1 h
  obtain ⟨symbols, hdefineIn, rfl⟩ := define_eq_ok_iff.1 hdefine
  obtain ⟨m, hm, hnew, -, hsame⟩ := bindings?_defineIn hdefineIn
  have howner := within_of_presents htables hin hnode
  obtain ⟨holder, id, scope, hfind, hid, hscope, rfl⟩ :=
    bindings?_eq_some_iff.1 (htables.bindings?_of_grows howner hsymbols hscopes hm)
  cases hlinks : holder.typeLinks? with
  | some info =>
    exact ⟨ty, owner, name, holder, info, id, scope, hnode, hname, hfind,
      Symbol.typeLinks?_eq_some_iff.1 hlinks, hid, hscope, hnew⟩
  | none =>
    have hfind' : symbols.find owner = .ok holder := find_mono (hsame ▸ hsymbols) hfind
    have hlinked := changeTypeLinks_eq_error (s := { initializerSession s ctx
      (attachmentPlan ctx node ty owner) name with symbols }) hfind' hlinks .initializerHolder
      fun info => { info with initializer := some (initializerLink s ctx node name) }
    rw [bind_of_error hlinked] at h
    cases h

end Synth

/-! ## In a compilation -/

namespace Compilation

variable {c c' d : Compilation} {env : Environment} {position : Nat} {f : SymbolId}

/-- The structure `ty` of a stored node has got the initializer `f`, whose name is `fullName` and
whose result is of the type `returns`. The structure's symbol `owner` was `holder`, with the links
`info` and the scope `scope`, whose handle is `id`. -/
structure Attached (c c' : Compilation) (env : Environment) (position : Nat) (f : SymbolId)
    (fullName : String) (returns : TypeId) (package : Package) (tree : TypeNode)
    (node : StructureNode) (ty : TypeId) (owner : SymbolId) (holder : Symbol) (info : TypeLinks)
    (id : ScopeId) (scope : Scope) : Prop where
  /-- The package was there. -/
  package_found : c.packages[env.package]? = some package
  /-- So was the node, which is of this structure. -/
  node_found : c.nodes[position]? = some tree ∧ tree.structure? = some node ∧
    node.Presents c.types ty owner
  /-- The symbol was that of a named type, and had a scope. -/
  holder_found : c.symbols.find owner = .ok holder ∧ holder.kind = .type info ∧
    holder.scope = some id ∧ c.symbols.findScope id = .ok scope
  /-- The name is made of that of the type and of the suffix. -/
  fullName_eq : ∃ name, c.symbols.Calls c.types ty name ∧
    fullName = attachedName name c.settings.initializerSuffix
  /-- The settings say what it returns; it is nil by default. -/
  returns_eq : returns = c.settings.initializerReturns.getD Builtin.nil
  /-- The function comes after the variable that it is called on. -/
  handle : f = ⟨c.symbols.symbols.size + 1⟩
  /-- The symbol of the structure records the function. Three symbols have been added: the variable,
  the function and the symbol of the function type. -/
  symbols : c'.symbols.symbols =
    (((c.symbols.symbols.setIfInBounds owner.index
      (holder.recording
        { name := fullName, symbol := f, ty := ⟨c.types.entries.size⟩, span := node.span })).push
      { name := c.settings.receiverName, package := package.id, origin := .virtual
        span := node.span, ty := some ty, owner := some f, id := ⟨c.symbols.symbols.size⟩
        kind := .variable }).push
      { name := fullName, package := package.id, flags := .only .attached, origin := .virtual
        span := node.span, ty := some ⟨c.types.entries.size⟩, owner := some owner, id := f
        kind := .function
          { hasBody := true, receiver := some ⟨c.symbols.symbols.size⟩, returns := some returns }
        scope := some ⟨c.symbols.scopes.size⟩ }).push
      { name := fullName, package := package.id, flags := .only .attached, origin := .virtual
        span := node.span, ty := some ⟨c.types.entries.size⟩, owner := some f
        id := ⟨c.symbols.symbols.size + 2⟩
        kind := .functionType { params := [], rest := none, returns := some returns } }
  /-- The scope of the structure binds the name of the function. One scope has been added, which
  binds the name of the variable. -/
  scopes : c'.symbols.scopes =
    (c.symbols.scopes.setIfInBounds id.index
      { scope with bindings := scope.bindings.insert fullName f }).push
      { id := ⟨c.symbols.scopes.size⟩, owner := f
        bindings := (∅ : OrderedMap String SymbolId).insert c.settings.receiverName
          ⟨c.symbols.symbols.size⟩ }
  /-- The name of the function comes after all others. -/
  bound : (scope.bindings.insert fullName f).entries = scope.bindings.entries ++ [(fullName, f)]
  /-- One type has been added, that of the function. -/
  types : c'.types = ⟨c.types.entries.push
    { ty := .invokable [] none returns, symbol := some ⟨c.symbols.symbols.size + 2⟩ }⟩
  /-- The node has the function. -/
  nodes : c'.nodes = c.nodes.setIfInBounds position (tree.withStructure
    { node with
      initializer := some
        { name := ⟨fullName, node.span⟩, symbol := f, ty := ⟨c.types.entries.size⟩
          receiver := some
            { name := ⟨c.settings.receiverName, node.span⟩, ty
              symbol := ⟨c.symbols.symbols.size⟩, span := node.span }
          returns, flags := .only .attached, attached := true, span := node.span } })
  /-- Nothing else has been changed. -/
  aside : c'.packages = c.packages ∧ c'.names = c.names ∧ c'.settings = c.settings ∧
    c'.memo = c.memo ∧ c'.pending = c.pending

/-- **An initializer is attached in a session of the package.** -/
theorem attachInitializer_eq_ok_iff : attachInitializer env position c = .ok f c' ↔
    ∃ tree node package node' t, c.nodes[position]? = some tree ∧ tree.structure? = some node ∧
      c.packages[env.package]? = some package ∧
      Synth.attachInitializer ⟨c.settings, env.scopeOwner⟩ node (c.session package {}) =
        .ok (f, node') t ∧
      c' = { c.keep env.package {} t with
        nodes := c.nodes.setIfInBounds position (tree.withStructure node') } := by
  unfold attachInitializer
  simp only [bind_eq_ok_iff, node_eq_ok_iff, structureNode_eq_ok_iff, synthesize_eq_ok_iff]
  constructor
  · rintro ⟨tree, _, ⟨htree, rfl⟩, node, c, ⟨tree', htree', hnode, rfl⟩, ⟨f', node'⟩, _,
      ⟨package, t, hpackage, hrun, rfl⟩, _, _, hset, hf⟩
    obtain rfl := Option.some.inj (htree.symm.trans htree')
    cases hset
    cases hf
    exact ⟨tree, node, package, node', t, htree, hnode, hpackage, hrun, rfl⟩
  · rintro ⟨tree, node, package, node', t, htree, hnode, hpackage, hrun, rfl⟩
    exact ⟨tree, c, ⟨htree, rfl⟩, node, c, ⟨tree, htree, hnode, rfl⟩, (f, node'), _,
      ⟨package, t, hpackage, hrun, rfl⟩, (), _, rfl, rfl⟩

/-- A session that has changed neither its package nor what is remembered leaves no trace there. -/
theorem untouched_keep {package : Package} {slots : CloneSlots} {t : Session}
    (hpackage : c.packages[env.package]? = some package) (hp : t.package = package)
    (hm : t.memo = c.memo slots.memo) (hq : t.pending = c.pending slots.pending) :
    (c.keep env.package slots t).packages = c.packages ∧
      (c.keep env.package slots t).memo = c.memo ∧
        (c.keep env.package slots t).pending = c.pending :=
  ⟨packages_keep hpackage hp, memo_keep_of_eq hm, pending_keep_of_eq hq⟩

/-- **What gets an initializer gets this one.** -/
theorem exists_attached (hc : c.Closed) (hr : attachInitializer env position c = .ok f c') :
    ∃ fullName returns package tree node ty owner holder info id scope,
      Attached c c' env position f fullName returns package tree node ty owner holder info id
        scope := by
  obtain ⟨tree, node, package, node', t, htree, hnode, hpackage, hrun, rfl⟩ :=
    attachInitializer_eq_ok_iff.1 hr
  have hin : Within c.extent node := (hc.node htree).structure? hnode
  obtain ⟨ty, owner, name, holder, info, id, scope, hpresents, hcalls, hfind, hkind, hid, hscope,
    hnew⟩ := Synth.exists_of_attachInitializer (s := c.session package {}) hc.tables hin hrun
  rw [Synth.attachInitializer_eq hpresents hcalls hfind hid hscope hnew hkind] at hrun
  cases hrun
  have haside := untouched_keep (t := Synth.attachedSession (c.session package {})
    ⟨c.settings, env.scopeOwner⟩ node ty owner name holder id scope) hpackage rfl rfl rfl
  exact ⟨_, _, package, tree, node, ty, owner, holder, info, id, scope,
    { package_found := hpackage
      node_found := ⟨htree, hnode, hpresents⟩
      holder_found := ⟨hfind, hkind, hid, hscope⟩
      fullName_eq := ⟨name, hcalls, rfl⟩
      returns_eq := rfl
      handle := rfl
      symbols := rfl
      scopes := rfl
      bound := OrderedMap.entries_insert_of_not_mem hnew _
      types := rfl
      nodes := rfl
      aside := ⟨haside.1, rfl, rfl, haside.2⟩ }⟩

/-! ## A second time -/

/-- From `c` to `c'`, symbols, scopes and types have been added, and nothing else is different. -/
structure OnlyAdds (c c' : Compilation) : Prop where
  /-- The symbols are those of `c` and new ones. -/
  symbols : Grows c.symbols.symbols c'.symbols.symbols
  /-- So are the scopes: none of the old ones has got a binding. -/
  scopes : Grows c.symbols.scopes c'.symbols.scopes
  /-- So are the types. -/
  types : c.types.Grows c'.types
  /-- Nothing else has been changed. -/
  aside : c'.packages = c.packages ∧ c'.names = c.names ∧ c'.nodes = c.nodes ∧
    c'.settings = c.settings ∧ c'.memo = c.memo ∧ c'.pending = c.pending

/-- What `Attached` says of `c'` is still true of the compilation `d`, to which there may have been
added, and a stored node of it is of the same structure. -/
structure AttachesAgain (c' d : Compilation) (env : Environment) (position : Nat) (suffix : String)
    (ty : TypeId) (owner : SymbolId) : Prop where
  /-- The package is there. -/
  package_found : ∃ package, d.packages[env.package]? = some package
  /-- So is the node, which is of the structure. -/
  node_found : ∃ tree node, d.nodes[position]? = some tree ∧ tree.structure? = some node ∧
    node.Presents d.types ty owner
  /-- The symbols of `c'` are as they were. -/
  symbols : Grows c'.symbols.symbols d.symbols.symbols
  /-- So are the scopes. -/
  scopes : Grows c'.symbols.scopes d.symbols.scopes
  /-- So are the types. -/
  types : c'.types.Grows d.types
  /-- The suffix is the same. -/
  suffix_eq : d.settings.initializerSuffix = suffix

/-- **A structure gets no initializer whose name its scope has.** What was to become one is left
over, and all else is as it was. -/
theorem attachInitializer_taken {package : Package} {tree : TypeNode} {node : StructureNode}
    {ty : TypeId} {owner existing : SymbolId} {holder : Symbol} {id : ScopeId} {scope : Scope}
    {name : String} (hpackage : d.packages[env.package]? = some package)
    (htree : d.nodes[position]? = some tree) (hnode : tree.structure? = some node)
    (hpresents : node.Presents d.types ty owner) (hcalls : d.symbols.Calls d.types ty name)
    (hfind : d.symbols.find owner = .ok holder) (hid : holder.scope = some id)
    (hscope : d.symbols.findScope id = .ok scope)
    (htaken : (attachedName name d.settings.initializerSuffix, existing) ∈ scope.bindings.entries) :
    ∃ d', attachInitializer env position d =
      .error (Fault.nameTaken (attachedName name d.settings.initializerSuffix) scope.owner existing)
        d' ∧ d.OnlyAdds d' := by
  let ctx : Context := ⟨d.settings, env.scopeOwner⟩
  let plan := Synth.attachmentPlan ctx node ty owner
  let t := Synth.initializerSession (d.session package {}) ctx plan name
  have hrun : Synth.attachInitializer ctx node (d.session package {}) =
      .error (Fault.nameTaken (Synth.initializerName ctx name) scope.owner existing) t :=
    Synth.attachInitializer_taken hpresents hcalls hfind hid hscope htaken
  have hstop : synthesize env {} (Synth.attachInitializer · node) d =
      .error (Fault.nameTaken (Synth.initializerName ctx name) scope.owner existing)
        (d.keep env.package {} t) :=
    synthesize_eq_error_iff.2 (.inr ⟨package, t, hpackage, hrun, rfl⟩)
  obtain ⟨hsymbols, hscopes, htypes⟩ :=
    Synth.grows_initializerSession (d.session package {}) ctx plan name
  obtain ⟨hpackages, haside⟩ := untouched_keep (t := t) hpackage rfl rfl rfl
  refine ⟨d.keep env.package {} t, ?_, hsymbols, hscopes, htypes, hpackages, rfl, rfl, rfl, haside⟩
  unfold attachInitializer
  rw [bind_of_ok (node_eq_ok_iff.2 ⟨htree, rfl⟩),
    bind_of_ok (structureNode_eq_ok_iff.2 ⟨tree, htree, hnode, rfl⟩)]
  exact bind_of_error hstop

namespace Attached

variable {fullName : String} {returns ty : TypeId} {package : Package} {tree : TypeNode}
  {node : StructureNode} {owner : SymbolId} {holder : Symbol} {info : TypeLinks} {id : ScopeId}
  {scope : Scope}
  (h : Attached c c' env position f fullName returns package tree node ty owner holder info id
    scope)
include h

theorem grows_symbols : Grows (c.symbols.symbols.setIfInBounds owner.index (holder.recording
    { name := fullName, symbol := f, ty := ⟨c.types.entries.size⟩, span := node.span }))
      c'.symbols.symbols := by
  rw [h.symbols]
  exact ((Grows.push _ _).trans (.push _ _)).trans (.push _ _)

theorem grows_types : c.types.Grows c'.types := by
  rw [h.types]
  exact Grows.push _ _

/-- The symbol of the structure records the function. -/
theorem find_owner : c'.symbols.find owner = .ok (holder.recording
    { name := fullName, symbol := f, ty := ⟨c.types.entries.size⟩, span := node.span }) := by
  have hlt : owner.index < c.symbols.symbols.size := SymbolTable.lt_of_find h.holder_found.1
  rw [SymbolTable.find_eq_ok_iff]
  exact h.grows_symbols.getElem? (Array.getElem?_setIfInBounds_self_of_lt hlt)

/-- Its scope binds the name of the function. -/
theorem find_scope : c'.symbols.findScope id =
    .ok { scope with bindings := scope.bindings.insert fullName f } := by
  have hscope := SymbolTable.findScope_eq_ok_iff.1 h.holder_found.2.2.2
  have hlt := (Array.getElem?_eq_some_iff.1 hscope).1
  rw [SymbolTable.findScope_eq_ok_iff, h.scopes]
  exact (Grows.push _ _).getElem? (Array.getElem?_setIfInBounds_self_of_lt hlt)

/-- All symbols keep their names. -/
theorem find_named {y : SymbolId} {a : Symbol} (ha : c.symbols.find y = .ok a) :
    ∃ a', c'.symbols.find y = .ok a' ∧ a'.name = a.name := by
  by_cases hy : y = owner
  · subst hy
    obtain rfl := Except.ok.inj (h.holder_found.1.symm.trans ha)
    exact ⟨_, h.find_owner, Symbol.recording_name _ _⟩
  · have hne : owner.index ≠ y.index := fun heq => hy (congrArg SymbolId.mk heq.symm)
    refine ⟨a, ?_, rfl⟩
    rw [SymbolTable.find_eq_ok_iff] at ha ⊢
    exact h.grows_symbols.getElem? ((Array.getElem?_setIfInBounds_ne hne).trans ha)

/-- What the structure could do once, it can try again. -/
theorem attachesAgain :
    AttachesAgain c' c' env position c.settings.initializerSuffix ty owner where
  package_found := by
    rw [h.aside.1]
    exact ⟨package, h.package_found⟩
  node_found := by
    obtain ⟨htree, hnode, hty, hsymbol⟩ := h.node_found
    have hlt := (Array.getElem?_eq_some_iff.1 htree).1
    rw [h.nodes, Array.getElem?_setIfInBounds_self_of_lt hlt]
    refine ⟨_, _, rfl, TypeNode.structure?_withStructure hnode _, hty, ?_⟩
    exact hsymbol.imp_right fun ⟨hnone, e, he, hy⟩ => ⟨hnone, e, h.grows_types.find he, hy⟩
  symbols := .refl _
  scopes := .refl _
  types := Grows.refl _
  suffix_eq := by rw [h.aside.2.2.1]

/-- **The name is taken from now on.** -/
theorem attachInitializer_again {position' : Nat} {env' : Environment}
    (hd : AttachesAgain c' d env' position' c.settings.initializerSuffix ty owner) :
    ∃ d', attachInitializer env' position' d =
      .error (Fault.nameTaken fullName scope.owner f) d' ∧ d.OnlyAdds d' := by
  obtain ⟨package', hpackage⟩ := hd.package_found
  obtain ⟨tree', node', htree, hnode, hpresents⟩ := hd.node_found
  obtain ⟨name, ⟨hne, e, y, a, he, hy, ha, hname⟩, rfl⟩ := h.fullName_eq
  obtain ⟨a', ha', hname'⟩ := h.find_named ha
  have hcalls : d.symbols.Calls d.types ty name :=
    ⟨hne, e, y, a', TypeTable.Grows.find hd.types (h.grows_types.find he), hy,
      SymbolTable.find_mono hd.symbols ha', hname'.trans hname⟩
  have hfind := SymbolTable.find_mono hd.symbols h.find_owner
  have hscope := SymbolTable.findScope_mono hd.scopes h.find_scope
  have hid : (holder.recording
      { name := attachedName name c.settings.initializerSuffix, symbol := f
        ty := ⟨c.types.entries.size⟩, span := node.span }).scope = some id :=
    (holder.recording_scope _).trans h.holder_found.2.2.1
  have hmem : (attachedName name c.settings.initializerSuffix, f) ∈
      (scope.bindings.insert (attachedName name c.settings.initializerSuffix) f).entries := by
    rw [h.bound]
    simp
  rw [← hd.suffix_eq] at hscope hmem ⊢
  have htaken := attachInitializer_taken hpackage htree hnode hpresents hcalls hfind hid hscope hmem
  exact htaken

end Attached

/-- **What an initializer consists of**, and that a structure gets none of the same name again. -/
theorem attachInitializer_attaches (c c' : Compilation) (env : Environment) (position : Nat)
    (f : SymbolId) (hc : c.Closed) (hr : attachInitializer env position c = .ok f c') :
    ∃ fullName returns package tree node ty owner holder info id scope,
      Attached c c' env position f fullName returns package tree node ty owner holder info id
          scope ∧
        AttachesAgain c' c' env position c.settings.initializerSuffix ty owner ∧
        ∀ d env' position',
          AttachesAgain c' d env' position' c.settings.initializerSuffix ty owner →
            ∃ d', attachInitializer env' position' d =
              .error (Fault.nameTaken fullName scope.owner f) d' ∧ d.OnlyAdds d' := by
  obtain ⟨fullName, returns, package, tree, node, ty, owner, holder, info, id, scope, h⟩ :=
    exists_attached hc hr
  refine ⟨fullName, returns, package, tree, node, ty, owner, holder, info, id, scope, h,
    h.attachesAgain, fun d env' position' hd => h.attachInitializer_again hd⟩

/-- The record of `anonymous` gets its initializer, and not a second one. -/
theorem anonymous_attached : ∃ c' fullName returns package tree node ty owner holder info id scope,
    attachInitializer ⟨0, ⟨0⟩⟩ 0 anonymous = .ok ⟨3⟩ c' ∧
      Attached anonymous c' ⟨0, ⟨0⟩⟩ 0 ⟨3⟩ fullName returns package tree node ty owner holder info
        id scope ∧
      ∃ d', attachInitializer ⟨0, ⟨0⟩⟩ 0 c' =
        .error (Fault.nameTaken fullName scope.owner ⟨3⟩) d' := by
  have hrun : answers? (attachInitializer ⟨0, ⟨0⟩⟩ 0 anonymous) = some ⟨3⟩ := by
    decide +kernel
  obtain ⟨c', hc'⟩ := answers?_eq_some hrun
  obtain ⟨fullName, returns, package, tree, node, ty, owner, holder, info, id, scope, hattached,
    hagain, hall⟩ := attachInitializer_attaches anonymous c' ⟨0, ⟨0⟩⟩ 0 ⟨3⟩ (by decide +kernel) hc'
  obtain ⟨d', hd', -⟩ := hall c' ⟨0, ⟨0⟩⟩ 0 hagain
  exact ⟨c', fullName, returns, package, tree, node, ty, owner, holder, info, id, scope, hc',
    hattached, d', hd'⟩

end Compilation

end StructuralTypes
