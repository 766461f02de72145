import StructuralTypes.Proofs.Faithful.Synthesis
import StructuralTypes.Proofs.Writing.Registry

/-!
# The definitions of clones

A readonly variant is requested on its own, or for the fields that are built. Each such command may
register definitions, and their nodes are faithful to the tables that the command leaves, whether it
ends well or not.

Results:
* `ends_synthesize_gainsFaithful`: what a session registers is faithful in the compilation.
* **`Command.Clones.gainsFaithful_after`**: the definitions of clones are faithful.
-/

namespace StructuralTypes

/-- The command may make readonly clones. -/
def Command.Clones : Command → Prop
  | buildField .. | buildFields .. | readonlyVariant .. => True
  | _ => False

namespace Compilation

variable {α : Type} {c c' : Compilation} {env : Environment} {slots : CloneSlots} {p : Package}
  {d : TypeDefinition}

/-- From `c` to `c'` the definition has been registered, in the package that was `p`. -/
def Gains (c c' : Compilation) (p : Package) (d : TypeDefinition) : Prop :=
  ∃ (position : Nat) (p' : Package) (n : Nat), c.packages[position]? = some p ∧
    c'.packages[position]? = some p' ∧ p.typeDefinitions.length ≤ n ∧
    p'.typeDefinitions[n]? = some d

/-- The definitions that have been registered are faithful. -/
def GainsFaithful (c c' : Compilation) : Prop :=
  ∀ p d, c.Gains c' p d → d.node.Faithful c'.symbols c'.types p.imports

/-- Where no package has changed there is nothing to be said. -/
theorem gainsFaithful_of_packages_eq (h : c'.packages = c.packages) : c.GainsFaithful c' := by
  rintro p d ⟨position, p', n, hp, hp', hn, hd⟩
  rw [h, hp] at hp'
  obtain rfl := Option.some.inj hp'
  rw [List.getElem?_eq_none hn] at hd
  cases hd

/-- What is true in the session is true in the compilation that keeps it. -/
theorem gainsFaithful_keep {t : Session} (hp : c.packages[env.package]? = some p)
    (h : (c.session p slots).KeepsFaithful t) : c.GainsFaithful (c.keep env.package slots t) := by
  rintro q d ⟨position, q', n, hq, hq', hn, hd⟩
  replace hq' : (c.packages.setIfInBounds env.package t.package)[position]? = some q' := hq'
  by_cases hposition : env.package = position
  · subst hposition
    have hlt := (Array.getElem?_eq_some_iff.1 hp).1
    obtain rfl := Option.some.inj (hp.symm.trans hq)
    rw [Array.getElem?_setIfInBounds_self_of_lt hlt] at hq'
    obtain rfl := Option.some.inj hq'
    obtain ⟨ds, hds, hall⟩ := h.definitions
    replace hd : (p.typeDefinitions ++ ds)[n]? = some d := hds ▸ hd
    rw [List.getElem?_append_right hn] at hd
    have hfaithful := hall d (List.mem_of_getElem? hd)
    rwa [h.imports] at hfaithful
  · rw [Array.getElem?_setIfInBounds_ne hposition, hq] at hq'
    obtain rfl := Option.some.inj hq'
    rw [List.getElem?_eq_none hn] at hd
    cases hd

/-- **What a session registers is faithful in the compilation**, however the session ends. -/
theorem ends_synthesize_gainsFaithful {act : Context → Synth α}
    (hact : ∀ ctx, Synth.KeepsFaithful (act ctx)) :
    Ends (synthesize env slots act) c (fun _ c' => c.GainsFaithful c')
      fun _ c' => c.GainsFaithful c' := by
  cases hp : c.packages[env.package]? with
  | none => exact (ends_synthesize_of_none hp).2 (gainsFaithful_of_packages_eq rfl)
  | some p =>
    exact (ends_synthesize hp).2
      ((hact _ _).imp (fun _ _ ht => gainsFaithful_keep hp ht)
        fun _ _ ht => gainsFaithful_keep hp ht)

/-- The cloner of a context, if there is one, keeps nodes faithful. -/
theorem keepsFaithful_cloner? (wanted : Bool) (ctx : Context) :
    ∀ clone ∈ cloner? wanted ctx, ∀ stamp ty, Synth.KeepsFaithful (clone stamp ty) := by
  intro clone hclone
  obtain rfl := eq_of_mem_cloner? hclone
  exact Synth.keepsFaithful_readonlyVariant ctx

end Compilation

open Compilation

/-- **The definitions of clones are faithful**, however the command ends that makes them. -/
theorem Command.Clones.gainsFaithful_after {command : Command} (h : command.Clones)
    (c : Compilation) : c.GainsFaithful (c.after command.action) := by
  cases command with
  | buildField env memo pending plan template =>
    exact Ends.after (ends_discard.2
      (ends_synthesize_gainsFaithful fun ctx =>
        Synth.keepsFaithful_buildField (keepsFaithful_cloner? _ ctx) plan template))
  | buildFields env memo pending p position =>
    refine Ends.after ?_
    show Ends (Compilation.buildFields env memo pending p position) c _ _
    unfold Compilation.buildFields
    refine ends_bind.2 (ends_node.2 ⟨fun tree _ => ?_, fun _ => gainsFaithful_of_packages_eq rfl⟩)
    refine ends_bind.2 ((ends_structureNode position).imp ?_ ?_)
    · rintro before _ rfl
      exact ends_bind.2 ((ends_synthesize_gainsFaithful fun ctx =>
        Synth.keepsFaithful_buildFields (keepsFaithful_cloner? _ ctx) p before).imp
          (fun _ _ hbuilt => hbuilt) fun _ _ hbuilt => hbuilt)
    · rintro _ _ ⟨rfl, -⟩
      exact gainsFaithful_of_packages_eq rfl
  | readonlyVariant env slots stamp ty =>
    exact Ends.after (ends_discard.2
      (ends_synthesize_gainsFaithful fun ctx => Synth.keepsFaithful_readonlyVariant ctx stamp ty))
  | _ => exact h.elim

theorem Command.Clones.gainsFaithful {command : Command} {c c' : Compilation} (h : command.Clones)
    (done : command.action c = .ok () c') : c.GainsFaithful c' := by
  have hgains := h.gainsFaithful_after c
  unfold Compilation.after at hgains
  rwa [done] at hgains

end StructuralTypes
