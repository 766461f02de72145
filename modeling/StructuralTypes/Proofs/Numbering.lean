import StructuralTypes.Proofs.Command
import StructuralTypes.Proofs.Readonly.Naming

/-!
# The numbers in made-up names

Made-up names are asked for in any order, by any packages and of both families. A counter is moved
only by calls of its own family by its own package, so a name shows how many of them came before. A
new counter ends up at the number of its calls: it fits in 32 bits as long as there are fewer than
2 ^ 32 of them.

Results:
* `NameSupply.name_inj`: a name shows its family and its number.
* `mapM_handOut_eq`: what a series of calls does, wherever the counters stand.
* **`names_never_repeat`**: with new counters, a name shows how many calls there were before, and no
  package gets a name twice.
-/

namespace StructuralTypes

/-- Names of different families differ, and so do names with different numbers. -/
theorem NameSupply.name_inj {family family' : NameFamily} {n n' : Nat} :
    name family n = name family' n' ↔ family = family' ∧ n = n' := by
  refine ⟨fun h => ?_, fun h => h.1 ▸ h.2 ▸ rfl⟩
  have hfamily : family = family' := by
    -- the stems begin alike, and differ in the sixth letter
    have hletter := congrArg (fun s : String => s.toList[5]?) h
    cases family <;> cases family' <;> simp [name, NameFamily.stem] at hletter ⊢
  subst hfamily
  exact ⟨rfl, name_injective family h⟩

/-- A call for a made-up name: its family, and the package that asks. -/
abbrev NameCall := NameFamily × PackageId

/-- In answer to the calls, the names were handed out, and the counters went from `before` to
`after`. -/
structure HandedOut (before : NameSupply) (calls : List NameCall) (names : List String)
    (after : NameSupply) : Prop where
  /-- Each call is answered. -/
  length_eq : names.length = calls.length
  /-- A name shows how far its counter has come. -/
  numbered : ∀ (i : Nat) (call : NameCall), calls[i]? = some call →
    names[i]? = some (NameSupply.name call.1
      (before.count call.1 call.2 + (calls.take i).count call))
  /-- The counters count the calls. -/
  counted : ∀ call : NameCall,
    after.count call.1 call.2 = before.count call.1 call.2 + calls.count call

namespace HandedOut

variable {before after : NameSupply} {calls : List NameCall} {names : List String}

theorem nil (before : NameSupply) : HandedOut before [] [] before where
  length_eq := rfl
  numbered := by simp
  counted := by simp

/-- The first call moves its own counter, and no other. -/
theorem cons {call : NameCall}
    (h : HandedOut (before.next call.1 call.2).2 calls names after) :
    HandedOut before (call :: calls)
      (NameSupply.name call.1 (before.count call.1 call.2) :: names) after := by
  have hmoved : ∀ call' : NameCall,
      (before.next call.1 call.2).2.count call'.1 call'.2 =
        before.count call'.1 call'.2 + if call = call' then 1 else 0 := by
    intro call'
    rw [NameSupply.count_next]
    by_cases heq : call = call'
    · subst heq
      simp
    · rw [if_neg fun hsame => heq (Prod.ext hsame.1.symm hsame.2.symm), if_neg heq, Nat.add_zero]
  refine ⟨by simp [h.length_eq], fun i call' hcall => ?_, fun call' => ?_⟩
  · cases i with
    | zero =>
      obtain rfl : call = call' := by simpa using hcall
      simp
    | succ i =>
      rw [List.getElem?_cons_succ] at hcall ⊢
      rw [h.numbered i call' hcall, hmoved, List.take_succ_cons, List.count_cons]
      simp only [beq_iff_eq, Nat.add_assoc, Nat.add_comm]
  · rw [h.counted, hmoved, List.count_cons]
    simp only [beq_iff_eq, Nat.add_assoc, Nat.add_comm]

/-- Two names that one package was given are different. -/
theorem ne (h : HandedOut before calls names after) {i j : Nat} {family family' : NameFamily}
    {package : PackageId} (hi : calls[i]? = some (family, package))
    (hj : calls[j]? = some (family', package)) (hij : i < j) : names[i]? ≠ names[j]? := by
  rw [h.numbered i _ hi, h.numbered j _ hj]
  intro heq
  obtain ⟨rfl, hnumber⟩ := NameSupply.name_inj.1 (Option.some.inj heq)
  -- the earlier call counts for the later one
  have hcount : (calls.take (i + 1)).count (family, package) ≤
      (calls.take j).count (family, package) :=
    (List.take_sublist_take_left hij).count_le _
  rw [List.take_add_one, hi, Option.toList_some, List.count_append, List.count_singleton_self]
    at hcount
  dsimp only at hnumber
  omega

end HandedOut

namespace Compilation

/-- Answer a call for a made-up name. -/
def handOut (call : NameCall) : Action String := onTables (Synth.nextName call.1 call.2)

/-- A call is answered from its counter, and only the counters change. -/
theorem handOut_eq (c : Compilation) (call : NameCall) :
    handOut call c = .ok (NameSupply.name call.1 (c.names.count call.1 call.2))
      { c with names := (c.names.next call.1 call.2).2 } := rfl

/-- All calls are answered, and only the counters change. -/
theorem mapM_handOut_eq (c : Compilation) (calls : List NameCall) :
    ∃ names supply, calls.mapM handOut c = .ok names { c with names := supply } ∧
      HandedOut c.names calls names supply := by
  induction calls generalizing c with
  | nil => exact ⟨[], c.names, rfl, .nil c.names⟩
  | cons call calls ih =>
    obtain ⟨names, supply, hrest, hnames⟩ :=
      ih { c with names := (c.names.next call.1 call.2).2 }
    refine ⟨_, supply, ?_, hnames.cons⟩
    rw [List.mapM_cons, bind_of_ok (handOut_eq c call), bind_of_ok hrest]
    rfl

/-- **Made-up names never repeat.** With new counters, a call is answered with the stem of its
family and the number of earlier calls of the same family by the same package, whatever was called
for in between, and no two calls by one package are answered alike. -/
theorem names_never_repeat (c : Compilation) (calls : List NameCall) (hc : c.names = {}) :
    ∃ names supply, calls.mapM handOut c = .ok names { c with names := supply } ∧
      names.length = calls.length ∧
      (∀ (i : Nat) family package, calls[i]? = some (family, package) →
        names[i]? =
          some (family.stem ++ "_" ++ ((calls.take i).count (family, package)).repr)) ∧
      (∀ (i j : Nat) family family' package, i ≠ j → calls[i]? = some (family, package) →
        calls[j]? = some (family', package) → names[i]? ≠ names[j]?) ∧
      ∀ family package, supply.count family package = calls.count (family, package) := by
  obtain ⟨names, supply, hrun, hnames⟩ := mapM_handOut_eq c calls
  have hnew : ∀ family package, c.names.count family package = 0 := by
    intro family package
    rw [hc]
    rfl
  refine ⟨names, supply, hrun, hnames.length_eq, fun i family package hi => ?_, ?_,
    fun family package => ?_⟩
  · rw [hnames.numbered i _ hi, hnew, Nat.zero_add]
    rfl
  · intro i j family family' package hij hi hj
    rcases Nat.lt_or_gt_of_ne hij with hij | hij
    · exact hnames.ne hi hj hij
    · exact (hnames.ne hj hi hij).symm
  · rw [hnames.counted (family, package), hnew, Nat.zero_add]

/-- Calls of both families by two packages. -/
def interleaved : List NameCall :=
  [(.anonymousType, ⟨0⟩), (.errorDetail, ⟨0⟩), (.anonymousType, ⟨1⟩), (.anonymousType, ⟨0⟩)]

theorem interleaved_names : (∅ : Compilation).names = {} ∧ ∃ names supply,
    interleaved.mapM handOut ∅ = .ok names { (∅ : Compilation) with names := supply } ∧
      names[2]? = some "$anonType$_0" ∧ names[3]? = some "$anonType$_1" ∧
      names[0]? ≠ names[3]? ∧ names[0]? ≠ names[1]? := by
  obtain ⟨names, supply, hrun, -, hnumbered, hne, -⟩ := names_never_repeat ∅ interleaved rfl
  refine ⟨rfl, names, supply, hrun, hnumbered 2 .anonymousType ⟨1⟩ rfl,
    hnumbered 3 .anonymousType ⟨0⟩ rfl, ?_, ?_⟩
  · exact hne 0 3 .anonymousType .anonymousType ⟨0⟩ (by decide) rfl rfl
  · exact hne 0 1 .anonymousType .errorDetail ⟨0⟩ (by decide) rfl rfl

end Compilation

end StructuralTypes
