import StructuralTypes.Proofs.Command
import StructuralTypes.Proofs.Range.Synthesis
import StructuralTypes.Proofs.Readonly.Visibility

/-!
# Runs of a closed compilation

A compilation is closed if all handles that it stores lead to something. A command in range leaves a
closed compilation, answered or not, and never follows a handle beyond the end of its table: the
session that it opens is closed, and what it keeps of the session is within the tables that it keeps
too.

Results:
* `secure_synthesize`, `secure_onTables`: what is secure in a session is so in a compilation.
* `Command.secure`: a command in range.
* **`closed_execute`**: a run of commands, each in range when its turn has come.
-/

namespace StructuralTypes

namespace Compilation

variable {α β : Type} [HasHandles α] [HasHandles β] {c c' c'' : Compilation} {act : Action α}

/-! ## Closed compilations -/

/-- All handles of `c'` lead to something, and its tables reach at least as far as those of `c`. -/
structure ClosedBeyond (c c' : Compilation) : Prop where
  /-- The tables have not shrunk. -/
  extent : c.extent ≤ c'.extent
  /-- All handles lead to something. -/
  closed : c'.Closed

theorem ClosedBeyond.trans (h : c.ClosedBeyond c') (h' : c'.ClosedBeyond c'') :
    c.ClosedBeyond c'' :=
  ⟨Extent.le_trans h.extent h'.extent, h'.closed⟩

namespace Closed

variable (h : c.Closed)
include h

theorem beyond : c.ClosedBeyond c := ⟨c.extent.le_refl, h⟩

theorem tables : ClosedTables c.extent c.symbols c.types :=
  have h := within_compilation.1 h
  ⟨rfl, rfl, rfl, h.1, h.2.1⟩

theorem package {position : Nat} {p : Package} (hp : c.packages[position]? = some p) :
    Within c.extent p :=
  (within_compilation.1 h).2.2.1.getElem? hp

theorem node {position : Nat} {n : TypeNode} (hn : c.nodes[position]? = some n) :
    Within c.extent n :=
  (within_compilation.1 h).2.2.2.1.getElem? hn

theorem memo (slot : Nat) : Within c.extent (c.memo slot) := by
  unfold Compilation.memo
  cases hm : c.memos.get? slot with
  | none => exact within_emptyMap
  | some m => exact (within_compilation.1 h).2.2.2.2.1.get? hm

theorem pending (slot : Nat) : Within c.extent (c.pending slot) := by
  unfold Compilation.pending
  cases hp : c.pendings.get? slot with
  | none => exact within_emptyMap
  | some p => exact (within_compilation.1 h).2.2.2.2.2.1.get? hp

theorem settings : Within c.extent c.settings := (within_compilation.1 h).2.2.2.2.2.2

/-- A session that is opened is closed. -/
theorem session {p : Package} (hp : Within c.extent p) (slots : CloneSlots) :
    (c.session p slots).Closed :=
  within_session.2 ⟨h.tables.symbols, h.tables.types, hp, h.memo _, h.pending _⟩

/-- What is kept of the tables of a closed session is closed. -/
theorem keepTables {p : Package} {slots : CloneSlots} {s : Session}
    (hs : (c.session p slots).ClosedBeyond s) : c.ClosedBeyond (c.keepTables s) := by
  obtain ⟨-, -, hpackages, hnodes, hmemos, hpendings, hsettings⟩ := within_compilation.1 h
  exact ⟨hs.extent, within_compilation.2 ⟨hs.closed.tables.symbols, hs.closed.tables.types,
    hpackages.mono hs.extent, hnodes.mono hs.extent, hmemos.mono hs.extent,
    hpendings.mono hs.extent, hsettings.mono hs.extent⟩⟩

/-- What is kept of a closed session is closed. -/
theorem keep {p : Package} {slots : CloneSlots} {s : Session}
    (hs : (c.session p slots).ClosedBeyond s) (position : Nat) :
    c.ClosedBeyond (c.keep position slots s) := by
  obtain ⟨-, -, hpackages, hnodes, hmemos, hpendings, hsettings⟩ := within_compilation.1 h
  refine ⟨hs.extent, within_compilation.2 ⟨hs.closed.tables.symbols, hs.closed.tables.types,
    ?_, hnodes.mono hs.extent, ?_, ?_, hsettings.mono hs.extent⟩⟩
  · exact Within.setIfInBounds (hpackages.mono hs.extent) hs.closed.package position
  · exact Within.insert (hmemos.mono hs.extent) (within_nat _) hs.closed.memo
  · exact Within.insert (hpendings.mono hs.extent) (within_nat _) hs.closed.pending

/-- The packages are replaced. -/
theorem withPackages {packages : Array Package} (hp : Within c.extent packages) :
    c.ClosedBeyond { c with packages } := by
  obtain ⟨hsymbols, htypes, -, hnodes, hmemos, hpendings, hsettings⟩ := within_compilation.1 h
  exact ⟨c.extent.le_refl, within_compilation.2
    ⟨hsymbols, htypes, hp, hnodes, hmemos, hpendings, hsettings⟩⟩

/-- The nodes are replaced. -/
theorem withNodes {nodes : Array TypeNode} (hn : Within c.extent nodes) :
    c.ClosedBeyond { c with nodes } := by
  obtain ⟨hsymbols, htypes, hpackages, -, hmemos, hpendings, hsettings⟩ := within_compilation.1 h
  exact ⟨c.extent.le_refl, within_compilation.2
    ⟨hsymbols, htypes, hpackages, hn, hmemos, hpendings, hsettings⟩⟩

end Closed

/-! ## Rules -/

/-- The action leaves a closed compilation, and a result within it unless it stops, and it does not
stop at the end of a table. -/
def Secure (c : Compilation) (act : Action α) : Prop :=
  Ends act c (fun a c' => c.ClosedBeyond c' ∧ Within c'.extent a)
    fun e c' => c.ClosedBeyond c' ∧ e ≠ .dangling

/-- The action changes nothing, gives back what is within the compilation, and does not stop at the
end of a table. -/
def Reads (c : Compilation) (act : Action α) : Prop :=
  Ends act c (fun a c' => c' = c ∧ Within c.extent a) fun e c' => c' = c ∧ e ≠ .dangling

theorem Reads.secure (hc : c.Closed) (h : Reads c act) : Secure c act := by
  refine h.imp ?_ ?_
  · rintro a _ ⟨rfl, ha⟩
    exact ⟨hc.beyond, ha⟩
  · rintro e _ ⟨rfl, he⟩
    exact ⟨hc.beyond, he⟩

theorem reads_pure {a : α} (ha : Within c.extent a) : Reads c (pure a : Action α) := ⟨rfl, ha⟩

theorem reads_fault (f : Fault) : Reads c (throw (Stop.fault f) : Action α) :=
  ⟨rfl, Stop.noConfusion⟩

theorem reads_reading {read : Compilation → Except Stop α} (h : Sound c.extent (read c)) :
    Reads c (reading read) := by
  obtain ⟨hok, herror⟩ := sound_iff.1 h
  exact ends_reading.2 ⟨fun a ha => ⟨rfl, hok a ha⟩,
    fun e he => ⟨rfl, fun hdangling => herror (hdangling ▸ he)⟩⟩

theorem secure_pure (hc : c.Closed) {a : α} (ha : Within c.extent a) :
    Secure c (pure a : Action α) :=
  (reads_pure ha).secure hc

section Bind

variable {f : α → Action β}

/-- Two actions in a row. -/
theorem Secure.bind (h : Secure c act)
    (hf : ∀ a c', c.ClosedBeyond c' → Within c'.extent a → Secure c' (f a)) :
    Secure c (act >>= f) := by
  refine ends_bind.2 (h.imp ?_ fun _ _ he => he)
  intro a c' ⟨hc', ha⟩
  refine (hf a c' hc' ha).imp ?_ ?_
  · exact fun b c'' ⟨hc'', hb⟩ => ⟨hc'.trans hc'', hb⟩
  · exact fun e c'' ⟨hc'', he⟩ => ⟨hc'.trans hc'', he⟩

/-- What comes after a reading begins with the same compilation. -/
theorem Reads.bind (hc : c.Closed) (h : Reads c act)
    (hf : ∀ a, Within c.extent a → Secure c (f a)) : Secure c (act >>= f) := by
  refine ends_bind.2 (h.imp ?_ ?_)
  · rintro a _ ⟨rfl, ha⟩
    exact hf a ha
  · rintro e _ ⟨rfl, he⟩
    exact ⟨hc.beyond, he⟩

theorem Reads.bind_reads (h : Reads c act) (hf : ∀ a, Within c.extent a → Reads c (f a)) :
    Reads c (act >>= f) := by
  refine ends_bind.2 (h.imp ?_ fun _ _ he => he)
  rintro a _ ⟨rfl, ha⟩
  exact hf a ha

end Bind

theorem Secure.discarded (h : Secure c act) : Secure c (discard act) :=
  ends_discard.2 (h.imp (fun _ _ ha => ⟨ha.1, within_unit _⟩) fun _ _ he => he)

theorem Reads.discarded (h : Reads c act) : Reads c (discard act) :=
  ends_discard.2 (h.imp (fun _ _ ha => ⟨ha.1, within_unit _⟩) fun _ _ he => he)

/-! ## Sessions -/

section Sessions

variable {env : Environment} {slots : CloneSlots}

/-- What is secure in a session is so in a compilation. -/
theorem secure_onTables {x : Synth α} (hc : c.Closed) (h : Synth.Secure c.extent x) :
    Secure c (onTables x) := by
  have hsession := hc.session (p := { id := ⟨0⟩, name := "" })
    (within_package.2 ⟨within_nil, within_nil⟩) {}
  refine ends_onTables.2 ((h _ rfl hsession).imp ?_ ?_)
  · exact fun a t ⟨ht, ha⟩ => ⟨hc.keepTables ht, ha⟩
  · exact fun e t ⟨ht, he⟩ => ⟨hc.keepTables ht, he⟩

/-- What is secure in a session is so in an environment. -/
theorem secure_synthesize {act : Context → Synth α} (hc : c.Closed)
    (hposition : (Position.package env.package).Occupied c) (henv : Within c.extent env)
    (h : ∀ ctx, Within c.extent ctx → Synth.Secure c.extent (act ctx)) :
    Secure c (synthesize env slots act) := by
  obtain ⟨p, hp⟩ := Option.isSome_iff_exists.1 hposition
  have hctx : Within c.extent (⟨c.settings, env.scopeOwner⟩ : Context) :=
    within_context.2 ⟨hc.settings, within_environment.1 henv⟩
  refine (ends_synthesize hp).2 ((h _ hctx _ rfl (hc.session (hc.package hp) slots)).imp ?_ ?_)
  · exact fun a t ⟨ht, ha⟩ => ⟨hc.keep ht _, ha⟩
  · exact fun e t ⟨ht, he⟩ => ⟨hc.keep ht _, he⟩

end Sessions

/-! ## Nodes and packages -/

section Parts

variable {position : Nat}

theorem reads_node (hc : c.Closed) (h : (Position.node position).Occupied c) :
    Reads c (node position) := by
  obtain ⟨n, hn⟩ := Option.isSome_iff_exists.1 h
  refine reads_reading ?_
  rw [hn]
  exact hc.node hn

theorem reads_structureNode (hc : c.Closed) (h : (Position.node position).Occupied c) :
    Reads c (structureNode position) := by
  refine (reads_node hc h).bind_reads fun n hn => ?_
  split
  · rename_i s hs
    exact reads_pure (hn.structure? hs)
  · exact reads_fault _

theorem reads_package (hc : c.Closed) (h : (Position.package position).Occupied c) :
    Reads c (package position) := by
  obtain ⟨p, hp⟩ := Option.isSome_iff_exists.1 h
  refine reads_reading ?_
  rw [hp]
  exact hc.package hp

theorem ends_package {p : Package} {Q : Package → Compilation → Prop}
    {E : Stop → Compilation → Prop} (hp : c.packages[position]? = some p) (h : Q p c) :
    Ends (package position) c Q E := by
  refine ends_reading.2 ⟨fun p' hp' => ?_, fun e he => ?_⟩
  · rw [hp] at hp'
    exact Except.ok.inj hp' ▸ h
  · rw [hp] at he
    cases he

theorem secure_addNode (hc : c.Closed) {n : TypeNode} (hn : Within c.extent n) :
    Secure c (addNode n) :=
  ⟨hc.withNodes (Within.push (within_compilation.1 hc).2.2.2.1 hn), within_nat _⟩

theorem secure_setNode (hc : c.Closed) (position : Nat) {n : TypeNode} (hn : Within c.extent n) :
    Secure c (setNode position n) :=
  ⟨hc.withNodes (Within.setIfInBounds (within_compilation.1 hc).2.2.2.1 hn position), within_unit _⟩

/-- A package is changed in place. -/
theorem secure_changePackage {change : Package → Except Stop (α × Package)} (hc : c.Closed)
    (h : (Position.package position).Occupied c)
    (hchange : ∀ p, Within c.extent p → Sound c.extent (change p)) :
    Secure c (changePackage position change) := by
  unfold changePackage
  refine (reads_package hc h).bind hc fun before hbefore => ?_
  refine (reads_reading (hchange before hbefore)).bind hc fun ⟨a, after⟩ ha => ?_
  obtain ⟨ha, hafter⟩ := within_prod.1 ha
  exact ⟨hc.withPackages (Within.setIfInBounds (within_compilation.1 hc).2.2.1 hafter position), ha⟩

/-- What is pending in a slot is replaced. -/
theorem secure_changePending (hc : c.Closed) (slot : Nat) {f : CloneMap → CloneMap}
    (hf : ∀ m, Within c.extent m → Within c.extent (f m)) : Secure c (changePending slot f) := by
  obtain ⟨hsymbols, htypes, hpackages, hnodes, hmemos, hpendings, hsettings⟩ :=
    within_compilation.1 hc
  exact ⟨⟨c.extent.le_refl, within_compilation.2 ⟨hsymbols, htypes, hpackages, hnodes, hmemos,
    hpendings.insert (within_nat slot) (hf _ (hc.pending slot)), hsettings⟩⟩, within_unit _⟩

theorem secure_addField (hc : c.Closed) {ty : TypeId} (hty : Within c.extent ty) (key : String)
    {field : Field} (hfield : Within c.extent field) : Secure c (addField ty key field) := by
  unfold addField
  refine (reads_reading (sound_type hc.tables hty)).bind hc fun e _ => ?_
  split
  · exact secure_pure hc within_none
  · refine (secure_onTables hc (Synth.secure_changeType hty fun e he => ?_)).bind
      fun _ c' h _ => secure_pure h.closed (within_some.2 (within_bool _))
    refine within_typeEntry.2 ⟨?_, (within_typeEntry.1 he).2⟩
    exact (within_typeEntry.1 he).1.mapFields fun _ hfs => hfs.insert (within_string key) hfield

theorem secure_bindDetail (hc : c.Closed) (h : (Position.node position).Occupied c) {ty : TypeId}
    (hty : Within c.extent ty) (name : String) : Secure c (bindDetail position ty name) := by
  unfold bindDetail
  refine (reads_node hc h).bind hc fun before hbefore => ?_
  refine (reads_reading (sound_bindDetail? hc.tables hbefore hty name)).bind hc fun o ho => ?_
  split
  · exact (secure_setNode hc position (within_some.1 ho)).bind fun _ c' h' _ =>
      secure_pure h'.closed (within_bool _)
  · exact secure_pure hc (within_bool _)

end Parts

/-! ## Operations of a synthesis -/

section Operations

variable {env : Environment} {position : Nat} {ty : TypeId} {s : SymbolId}

theorem secureCloner_cloner? {b : Extent} {ctx : Context} (hctx : Within b ctx) (wanted : Bool) :
    ∀ clone ∈ cloner? wanted ctx, Synth.SecureCloner b clone := by
  intro clone hclone
  obtain rfl := eq_of_mem_cloner? hclone
  exact Synth.secureCloner_readonlyVariant hctx

theorem secure_attachInitializer (hc : c.Closed) (henv : Within c.extent env)
    (hpackage : (Position.package env.package).Occupied c)
    (hnode : (Position.node position).Occupied c) : Secure c (attachInitializer env position) := by
  unfold attachInitializer
  refine (reads_node hc hnode).bind hc fun tree htree => ?_
  refine (reads_structureNode hc hnode).bind hc fun before hbefore => ?_
  refine (secure_synthesize hc hpackage henv fun ctx hctx =>
    Synth.secure_attachInitializer hctx hbefore).bind fun ⟨y, after⟩ c' h hafter => ?_
  obtain ⟨hy, hafter⟩ := within_prod.1 hafter
  refine (secure_setNode h.closed position ((htree.mono h.extent).withStructure hafter)).bind
    fun _ c'' h' _ => secure_pure h'.closed (hy.mono h'.extent)

theorem secure_buildFields (hc : c.Closed) (henv : Within c.extent env)
    (hpackage : (Position.package env.package).Occupied c)
    (hnode : (Position.node position).Occupied c) (memo : Option Nat) (pending : Nat)
    {p : Population} (hp : Within c.extent p) :
    Secure c (buildFields env memo pending p position) := by
  unfold buildFields
  refine (reads_node hc hnode).bind hc fun tree htree => ?_
  refine (reads_structureNode hc hnode).bind hc fun before hbefore => ?_
  refine (secure_synthesize hc hpackage henv fun ctx hctx => ?_).bind fun after c' h hafter => ?_
  · exact Synth.secure_buildFields (secureCloner_cloner? hctx _) hctx hp hbefore
  · exact secure_setNode h.closed position ((htree.mono h.extent).withStructure hafter)

/-- A node that was put together is stored. -/
theorem secure_bind_addNode {act : Action α} (h : Secure c act) {make : α → TypeNode}
    (hmake : ∀ b a, Within b a → Within b (make a)) : Secure c (do addNode (make (← act))) :=
  h.bind fun a _ h' ha => secure_addNode h'.closed (hmake _ a ha)

end Operations

end Compilation

open Compilation

variable {c : Compilation}

/-! ## Commands -/

/-- What a query looks at is there. -/
theorem Query.reads (hc : c.Closed) {q : Query} (hq : Within c.extent q)
    (hpositions : ∀ position ∈ q.positions, position.Occupied c) : Reads c q.action := by
  have ht := hc.tables
  have hsole : ∀ {position}, q.positions = [position] → position.Occupied c :=
    fun heq => hpositions _ (heq ▸ List.mem_singleton.2 rfl)
  cases q with
  | symbol s => exact (reads_reading (sound_symbol ht hq)).discarded
  | scope id => exact (reads_reading (sound_scope ht hq)).discarded
  | scopeOf s => exact (reads_reading (sound_scopeOf ht hq)).discarded
  | lookup id name => exact (reads_reading (sound_lookup ht name hq)).discarded
  | type ty => exact (reads_reading (sound_type ht hq)).discarded
  | implied ty => exact (reads_reading (sound_implied ht hq)).discarded
  | isReadonly ty => exact (reads_reading (sound_isReadonly ht hq)).discarded
  | display ty => exact (reads_reading (sound_display ht hq)).discarded
  | isPlaceholder r => exact (reads_reading (sound_isPlaceholder ht hq)).discarded
  | deferred position =>
    exact (reads_node hc (hsole rfl)).bind_reads fun n hn =>
      (reads_reading (sound_deferred ht hn)).discarded
  | renderNode position level =>
    exact (reads_node hc (hsole rfl)).bind_reads fun n hn =>
      (reads_reading (sound_render ht level hn)).discarded
  | typeDefinition position number =>
    obtain ⟨p, d, hp, hd⟩ := Position.exists_typeDefinition (hsole rfl)
    refine Reads.discarded (ends_bind.2 (ends_package hp ?_))
    rw [hd]
    have hdefinitions := (within_package.1 (hc.package hp)).1
    exact reads_pure (within_list.1 hdefinitions d (List.mem_of_getElem? hd))
  | classDefinition position number =>
    obtain ⟨p, d, hp, hd⟩ := Position.exists_classDefinition (hsole rfl)
    refine ends_bind.2 (ends_package hp ?_)
    rw [hd]
    exact reads_pure (within_unit _)
  | findType position name =>
    refine (reads_package hc (hsole rfl)).bind_reads fun p hp => (reads_reading ?_).discarded
    refine within_option.2 fun d hd => ?_
    exact within_list.1 (within_package.1 hp).1 d (List.mem_of_find?_eq_some hd)
  | qualifier position unit target =>
    refine (reads_package hc (hsole rfl)).bind_reads fun p _ => (reads_reading ?_).discarded
    exact within_string (p.qualifierFor unit target)
  | renderPackage position =>
    exact (reads_package hc (hsole rfl)).bind_reads fun p hp =>
      (reads_reading (sound_renderPackage ht hp)).discarded
  | memo slot ty =>
    refine (reads_reading (α := Option TypeId) ?_).discarded
    exact within_option.2 fun v hv => (hc.memo slot).get? hv
  | pending slot ty =>
    refine (reads_reading (α := Option TypeId) ?_).discarded
    exact within_option.2 fun v hv => (hc.pending slot).get? hv

/-- **A registration in range** leaves a closed compilation. -/
theorem Registration.secure (hc : c.Closed) {r : Registration} (hr : Within c.extent r)
    (hpositions : ∀ position ∈ r.positions, position.Occupied c) : Secure c r.action := by
  cases r with
  | typeDefinition position d =>
    exact secure_changePackage hc (hpositions _ (List.mem_singleton.2 rfl)) fun p hp =>
      sound_registerType hp hr
  | classDefinition position d =>
    exact secure_changePackage hc (hpositions _ (List.mem_singleton.2 rfl)) fun p hp =>
      sound_registerClass hp hr
  | definition env ty s position =>
    obtain ⟨henv, hty, hs⟩ := within_triple.1 hr
    refine (reads_node hc (hpositions _ (by simp [positions]))).bind hc fun tree htree => ?_
    exact secure_synthesize hc (hpositions _ (by simp [positions])) henv fun _ _ =>
      Synth.secure_registerDefinition hty hs htree
  | synthesized env ty template position =>
    obtain ⟨henv, hty, hs⟩ := within_triple.1 hr
    refine (reads_node hc (hpositions _ (by simp [positions]))).bind hc fun tree htree => ?_
    exact secure_synthesize hc (hpositions _ (by simp [positions])) henv fun _ _ =>
      Synth.secure_registerSynthesizedDefinition hty hs htree
  | classOf env s span =>
    obtain ⟨henv, hs⟩ := within_prod.1 hr
    exact secure_synthesize hc (hpositions _ (by simp [positions])) henv fun _ _ =>
      Synth.secure_registerClassOf span hs
  | anonymousRecord env ty span =>
    obtain ⟨henv, hty⟩ := within_prod.1 hr
    exact secure_synthesize hc (hpositions _ (by simp [positions])) henv fun _ hctx =>
      Synth.secure_registerAnonymousRecord hctx hty span

/-- **A command in range** leaves a closed compilation, and does not come to the end of a table. -/
theorem Command.secure (hc : c.Closed) {command : Command} (h : command.InRange c) :
    Secure c command.action := by
  obtain ⟨hin, hpositions⟩ := h
  have ht := hc.tables
  cases command with
  | query q => exact (Query.reads hc hin hpositions).secure hc
  | register r => exact (Registration.secure hc hin hpositions).discarded
  | addSymbol kind d =>
    obtain ⟨hkind, hd⟩ := within_prod.1 hin
    exact (secure_onTables hc (Synth.secure_addSymbol hkind hd)).discarded
  | setSymbol s symbol =>
    obtain ⟨hs, hsymbol⟩ := within_prod.1 hin
    exact secure_onTables hc (Synth.secure_changeSymbol hs fun _ _ => hsymbol)
  | openScope owner => exact (secure_onTables hc (Synth.secure_openScope hin)).discarded
  | defineAt scope name s =>
    obtain ⟨hscope, hs⟩ := within_prod.1 hin
    exact secure_onTables hc (Synth.secure_defineAt hscope name hs)
  | define owner name s =>
    obtain ⟨howner, hs⟩ := within_prod.1 hin
    exact secure_onTables hc (Synth.secure_define howner name hs)
  | addType entry => exact (secure_onTables hc (Synth.secure_addType hin)).discarded
  | setType ty entry =>
    obtain ⟨hty, hentry⟩ := within_prod.1 hin
    exact secure_onTables hc (Synth.secure_changeType hty fun _ _ => hentry)
  | addField ty key field =>
    obtain ⟨hty, hfield⟩ := within_prod.1 hin
    exact (secure_addField hc hty key hfield).discarded
  | nextName family package =>
    exact (secure_onTables hc (Synth.secure_nextName family package)).discarded
  | addNode node => exact (secure_addNode hc hin).discarded
  | setNode position node => exact secure_setNode hc position hin
  | bindDetail position ty name =>
    exact (secure_bindDetail hc (hpositions _ (List.mem_singleton.2 rfl)) hin name).discarded
  | addPackage id name =>
    refine Secure.discarded ⟨hc.withPackages ?_, within_nat _⟩
    exact Within.push (within_compilation.1 hc).2.2.1 (within_package.2 ⟨within_nil, within_nil⟩)
  | addImport position i =>
    exact secure_changePackage hc (hpositions _ (List.mem_singleton.2 rfl)) fun p hp =>
      sound_pure (within_prod.2 ⟨within_unit _, within_package.2 (within_package.1 hp)⟩)
  | begin slot ty clone =>
    obtain ⟨hty, hclone⟩ := within_prod.1 hin
    exact secure_changePending hc slot fun m hm => hm.insert hty hclone
  | finish slot ty => exact secure_changePending hc slot fun m hm => hm.erase ty
  | configure settings =>
    obtain ⟨hsymbols, htypes, hpackages, hnodes, hmemos, hpendings, -⟩ := within_compilation.1 hc
    exact ⟨⟨c.extent.le_refl, within_compilation.2
      ⟨hsymbols, htypes, hpackages, hnodes, hmemos, hpendings, hin⟩⟩, within_unit _⟩
  | createInitializer env plan =>
    obtain ⟨henv, hplan⟩ := within_prod.1 hin
    exact (secure_synthesize hc (hpositions _ (List.mem_singleton.2 rfl)) henv fun ctx _ =>
      Synth.secure_createInitializer ctx hplan).discarded
  | attachInitializer env position =>
    exact (secure_attachInitializer hc hin (hpositions _ (by simp [positions]))
      (hpositions _ (by simp [positions]))).discarded
  | transientDefinition ty s position =>
    obtain ⟨hty, hs⟩ := within_prod.1 hin
    refine Secure.discarded ((reads_node hc (hpositions _ (List.mem_singleton.2 rfl))).bind hc
      fun tree htree => ?_)
    exact secure_onTables hc (Synth.reads_draftDefinition hty hs htree).secure
  | fieldDeclarations ty package =>
    exact (secure_onTables hc (Synth.secure_fieldDeclarations hin package)).discarded
  | recordNode ty package span =>
    exact (secure_bind_addNode (secure_onTables hc (Synth.secure_recordNode hin package span))
      fun _ _ => id).discarded
  | objectNode ty span =>
    exact (secure_bind_addNode (secure_onTables hc (Synth.secure_objectNode hin span))
      fun _ _ => id).discarded
  | errorNode env ty span =>
    obtain ⟨henv, hty⟩ := within_prod.1 hin
    exact (secure_bind_addNode (secure_synthesize hc (hpositions _ (List.mem_singleton.2 rfl)) henv
      fun _ _ => Synth.secure_errorNode hty span) fun _ _ => id).discarded
  | buildField env memo pending plan template =>
    obtain ⟨henv, hplan, htemplate⟩ := within_triple.1 hin
    exact (secure_synthesize hc (hpositions _ (List.mem_singleton.2 rfl)) henv fun ctx hctx =>
      Synth.secure_buildField (secureCloner_cloner? hctx _) hctx hplan htemplate).discarded
  | buildFields env memo pending p position =>
    obtain ⟨henv, hp⟩ := within_prod.1 hin
    exact secure_buildFields hc henv (hpositions _ (by simp [positions]))
      (hpositions _ (by simp [positions])) memo pending hp
  | readonlyVariant env slots stamp ty =>
    obtain ⟨henv, hstamp, hty⟩ := within_triple.1 hin
    exact (secure_synthesize hc (hpositions _ (List.mem_singleton.2 rfl)) henv fun ctx hctx =>
      Synth.secureCloner_readonlyVariant hctx _ (Extent.le_refl _) stamp ty hstamp hty).discarded

/-! ## Runs -/

namespace Compilation

/-- Each of the commands is in range when its turn has come. -/
def Admits : Compilation → List Command → Prop
  | _, [] => True
  | c, command :: commands => command.InRange c ∧ (c.after command.action).Admits commands

instance Admits.decidable : ∀ (c : Compilation) (commands : List Command),
    Decidable (c.Admits commands)
  | _, [] => .isTrue trivial
  | c, command :: commands =>
    have := Admits.decidable (c.after command.action) commands
    inferInstanceAs (Decidable (command.InRange c ∧ (c.after command.action).Admits commands))

/-- **No run of a closed compilation ever comes to the end of a table.** All its states are closed,
whether its commands were answered or not. -/
theorem closed_execute (c : Compilation) (commands : List Command) (hc : c.Closed)
    (hin : c.Admits commands) :
    (∀ pre, pre <+: commands → (c.execute pre).Closed) ∧
      ∀ pre command, pre ++ [command] <+: commands →
        ∀ c', command.action (c.execute pre) ≠ .error .dangling c' := by
  induction commands generalizing c with
  | nil =>
    refine ⟨fun pre hpre => ?_, fun pre command hpre => ?_⟩
    · rw [List.prefix_nil.1 hpre]
      exact hc
    · simp at hpre
  | cons command commands ih =>
    obtain ⟨hfirst, hrest⟩ := hin
    have hends := Command.secure hc hfirst
    have hnext := ih (c.after command.action) (Ends.after (hends.imp (fun _ _ h => h.1.closed)
      fun _ _ h => h.1.closed)) hrest
    constructor
    · intro pre hpre
      cases pre with
      | nil => exact hc
      | cons command' pre =>
        obtain ⟨rfl, htail⟩ := List.cons_prefix_cons.1 hpre
        exact hnext.1 pre htail
    · intro pre command' hpre
      cases pre with
      | nil =>
        obtain ⟨rfl, -⟩ := List.cons_prefix_cons.1 hpre
        exact fun c' hstop => ((ends_iff.1 hends).2 _ c' hstop).2 rfl
      | cons command'' pre =>
        obtain ⟨rfl, htail⟩ := List.cons_prefix_cons.1 hpre
        exact hnext.2 pre command' htail

/-- A request that stops on its way, a look at the clone that it has left behind, and a record that
is registered after that. -/
def interrupted : List Command :=
  [.readonlyVariant ⟨0, ⟨0⟩⟩ {} ⟨{}, ⟨0⟩, ⟨0⟩⟩ ⟨14⟩, .query (.display ⟨16⟩),
    .register (.anonymousRecord ⟨0, ⟨0⟩⟩ ⟨15⟩ {})]

theorem broken_execute_interrupted :
    (∀ pre, pre <+: interrupted → (broken.execute pre).Closed) ∧
      ∀ pre command, pre ++ [command] <+: interrupted →
        ∀ c', command.action (broken.execute pre) ≠ .error .dangling c' :=
  closed_execute broken interrupted (by decide +kernel) (by decide +kernel)

end Compilation

end StructuralTypes
