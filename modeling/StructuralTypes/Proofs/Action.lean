import StructuralTypes.Compilation.Synthesis
import StructuralTypes.Proofs.Ending

/-!
# Actions

An action works on a compilation. It opens a session, on the tables alone (`onTables`) or in an
environment (`synthesize`), and keeps what the session has done, also when it stops. Or it reads and
replaces a stored node or a package. Each of these ways has its rule.

Operations on stored nodes are made of such steps. What their steps uphold, they uphold.

Results:
* `Ends.after`: what is so in both cases is so where the action leads.
* `ends_onTables`, `ends_synthesize`, `ends_node`, `ends_changePackage`: the rules.
* `upholds_synthesize`, `upholds_changePackage`: what is upheld in an environment or a package.
* `upholds_symbols_onTables`, `upholds_symbols_synthesize`: what a session upholds of the symbols.
* **`upholds_bindDetail`**, **`upholds_attachInitializer`**, **`upholds_buildFields`**: operations
  on stored nodes.
-/

namespace StructuralTypes

namespace Compilation

/-- Where the compilation is after an action, whether this has ended well or not. -/
def after {α : Type} (c : Compilation) (act : Action α) : Compilation :=
  match act c with
  | .ok _ c' => c'
  | .error _ c' => c'

end Compilation

/-- What holds in both cases holds of where the action leads. -/
theorem Ends.after {α : Type} {act : Action α} {c : Compilation} {P : Compilation → Prop}
    (h : Ends act c (fun _ => P) fun _ => P) : P (c.after act) := by
  unfold Ends at h
  unfold Compilation.after
  cases hact : act c <;> simpa only [hact] using h

theorem Upholds.after {α : Type} {act : Action α} {c : Compilation} {I : Compilation → Prop}
    (h : Upholds I act) (hc : I c) : I (c.after act) :=
  Ends.after (h c hc)

namespace Compilation

variable {α β : Type} {act : Action α} {c : Compilation} {Q : α → Compilation → Prop}
  {E : Stop → Compilation → Prop} {env : Environment} {slots : CloneSlots} {p : Package}
  {position : Nat}

theorem after_discard : c.after (discard act) = c.after act :=
  Ends.after (P := (· = c.after act)) (ends_discard.2 (by
    unfold Ends after
    cases act c <;> rfl))

/-- Only the result goes away. -/
theorem after_discard_of_ok {a : α} {c' : Compilation} (h : act c = .ok a c') :
    c.after (discard act) = c' := by
  rw [after_discard]
  unfold after
  rw [h]

/-! ## Sessions -/

/-- A session without a package is opened, and its tables are kept. -/
theorem ends_onTables {x : Synth α} :
    Ends (onTables x) c Q E ↔ Ends x (c.session { id := ⟨0⟩, name := "" } {})
      (fun a t => Q a (c.keepTables t)) fun e t => E e (c.keepTables t) := by
  unfold Ends onTables
  cases x (c.session { id := ⟨0⟩, name := "" } {}) <;> rfl

/-- A session is opened in the package, and all of it is kept. -/
theorem ends_synthesize {act : Context → Synth α} (hp : c.packages[env.package]? = some p) :
    Ends (synthesize env slots act) c Q E ↔
      Ends (act ⟨c.settings, env.scopeOwner⟩) (c.session p slots)
        (fun a t => Q a (c.keep env.package slots t))
        fun e t => E e (c.keep env.package slots t) := by
  unfold Ends synthesize
  rw [hp]
  dsimp only
  cases act ⟨c.settings, env.scopeOwner⟩ (c.session p slots) <;> rfl

/-- Without a package there is no session. -/
theorem ends_synthesize_of_none {act : Context → Synth α}
    (hp : c.packages[env.package]? = none) :
    Ends (synthesize env slots act) c Q E ↔ E .dangling c := by
  unfold Ends synthesize
  rw [hp]

/-- Putting a package where it was changes nothing. -/
theorem packages_keep {s : Session} (hp : c.packages[env.package]? = some p)
    (hs : s.package = p) : (c.keep env.package slots s).packages = c.packages := by
  refine Array.ext_getElem? fun i => ?_
  show (c.packages.setIfInBounds env.package s.package)[i]? = _
  by_cases hi : env.package = i
  · subst hi
    rw [hs, hp, Array.getElem?_setIfInBounds_self_of_lt (Array.getElem?_eq_some_iff.1 hp).1]
  · rw [Array.getElem?_setIfInBounds_ne hi]

/-! ## Nodes and packages -/

theorem ends_node {Q : TypeNode → Compilation → Prop} :
    Ends (node position) c Q E ↔
      (∀ n, c.nodes[position]? = some n → Q n c) ∧ (c.nodes[position]? = none → E .dangling c) := by
  unfold node
  rw [ends_reading]
  cases c.nodes[position]? <;> simp

/-- A package is replaced by what a change makes of it. -/
theorem ends_changePackage {change : Package → Except Stop (α × Package)} :
    Ends (changePackage position change) c Q E ↔
      (c.packages[position]? = none → E .dangling c) ∧
        ∀ p, c.packages[position]? = some p →
          (∀ a q, change p = .ok (a, q) →
            Q a { c with packages := c.packages.setIfInBounds position q }) ∧
            ∀ e, change p = .error e → E e c := by
  unfold changePackage package
  rw [ends_bind, ends_reading]
  cases c.packages[position]? with
  | none => simp
  | some p =>
    simp only [Except.ok.injEq, forall_eq', reduceCtorEq, false_implies, implies_true, and_true,
      Option.some.injEq, true_and]
    rw [ends_bind, ends_reading, Prod.forall]
    rfl

/-! ## What actions uphold -/

section Upholds

variable {I : Compilation → Prop} {J : SymbolTable → Prop}

theorem upholds_symbols_onTables {x : Synth α} (h : Upholds (J ·.symbols) x) :
    Upholds (J ·.symbols) (onTables x) :=
  fun _ hc => ends_onTables.2 (h _ hc)

/-- What all sessions keep when they are opened where it holds. -/
theorem upholds_synthesize {act : Context → Synth α}
    (h : ∀ c p, I c → c.packages[env.package]? = some p →
      Ends (act ⟨c.settings, env.scopeOwner⟩) (c.session p slots)
        (fun _ t => I (c.keep env.package slots t)) fun _ t => I (c.keep env.package slots t)) :
    Upholds I (synthesize env slots act) := by
  intro c hc
  cases hp : c.packages[env.package]? with
  | none => exact (ends_synthesize_of_none hp).2 hc
  | some p => exact (ends_synthesize hp).2 (h c p hc hp)

theorem upholds_symbols_synthesize {act : Context → Synth α}
    (h : ∀ ctx, Upholds (J ·.symbols) (act ctx)) :
    Upholds (J ·.symbols) (synthesize env slots act) :=
  upholds_synthesize fun _ _ hc _ => h _ _ hc

/-- What is so if the package is replaced by what becomes of it. -/
theorem upholds_changePackage {change : Package → Except Stop (α × Package)}
    (h : ∀ c p a q, I c → c.packages[position]? = some p → change p = .ok (a, q) →
      I { c with packages := c.packages.setIfInBounds position q }) :
    Upholds I (changePackage position change) := fun c hc =>
  ends_changePackage.2 ⟨fun _ => hc, fun p hp => ⟨fun a q hq => h c p a q hc hp hq, fun _ _ => hc⟩⟩

theorem upholds_structureNode (position : Nat) : Upholds I (structureNode position) := by
  refine (upholds_reading _).bind fun tree => ?_
  split
  · exact upholds_pure _
  · exact upholds_stop _

theorem upholds_addField {ty : TypeId} {key : String} {field : Field}
    (h : ∀ f, Upholds I (onTables (Synth.changeType ty f))) :
    Upholds I (addField ty key field) := by
  unfold addField
  refine (upholds_reading _).bind fun e => ?_
  split
  · exact upholds_pure _
  · exact (h _).bind fun _ => upholds_pure _

/-! ## Stored nodes -/

variable (hnodes : ∀ c nodes, I c → I { c with nodes })
include hnodes

theorem upholds_addNode (node : TypeNode) : Upholds I (addNode node) := fun c hc => hnodes c _ hc

theorem upholds_setNode (position : Nat) (node : TypeNode) : Upholds I (setNode position node) :=
  fun c hc => hnodes c _ hc

theorem upholds_bindDetail (position : Nat) (ty : TypeId) (name : String) :
    Upholds I (bindDetail position ty name) := by
  unfold bindDetail
  refine (upholds_reading _).bind fun before => (upholds_reading _).bind fun o => ?_
  split
  · exact (upholds_setNode hnodes position _).bind fun _ => upholds_pure _
  · exact upholds_pure _

/-- The structure is worked on in a session and stored again. -/
theorem upholds_attachInitializer
    (h : ∀ node, Upholds I (synthesize env {} fun ctx => Synth.attachInitializer ctx node)) :
    Upholds I (attachInitializer env position) := by
  unfold attachInitializer
  refine (upholds_reading _).bind fun tree => (upholds_structureNode position).bind fun before => ?_
  refine (h before).bind fun ⟨_, after⟩ => ?_
  exact (upholds_setNode hnodes position _).bind fun _ => upholds_pure _

/-- The structure is worked on in a session and stored again. -/
theorem upholds_buildFields {memo : Option Nat} {pending : Nat} {p : Population}
    (h : ∀ node, Upholds I (synthesize env ⟨memo.getD 0, pending⟩ fun ctx =>
      Synth.buildFields ctx (cloner? memo.isSome ctx) p node)) :
    Upholds I (buildFields env memo pending p position) := by
  unfold buildFields
  refine (upholds_reading _).bind fun tree => (upholds_structureNode position).bind fun before => ?_
  exact (h before).bind fun _ => upholds_setNode hnodes position _

end Upholds

/-- The cloner of a context, if there is one, makes readonly variants. -/
theorem eq_of_mem_cloner? {wanted : Bool} {ctx : Context} {clone : Cloner}
    (h : clone ∈ cloner? wanted ctx) : clone = Synth.readonlyVariant ctx := by
  unfold cloner? at h
  split at h
  · exact (Option.some.inj h).symm
  · cases h

end Compilation

end StructuralTypes
