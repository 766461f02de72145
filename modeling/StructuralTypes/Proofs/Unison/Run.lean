import StructuralTypes.Proofs.Command
import StructuralTypes.Proofs.Readonly.Naming
import StructuralTypes.Proofs.Unison.Clone

/-!
# Who asks does not matter

Two searches for the variant of one type begin in the same session, but in different packages, for
different owners and at different places. Each step of one does what the same step of the other
does, so if both find a variant, it is the same, and what they leave behind is alike.

Results:
* `Unison.cloneStep`, **`concerted_readonlyWithin`**: a step, and a search of any depth.
* **`request_unison`**: the answer does not depend on who asks.
* **`premature_disagrees`**: it does if a field names a symbol that is not there yet.
-/

namespace StructuralTypes

open Synth

namespace Session.Unison

variable {o s s' : Session} {q : Package} {ctx ctx' : Context} {cl cl' : Cloner}
  {stamp stamp' : Stamp} {ty base : TypeId}

theorem variantAtHand? (h : o.Unison q s s') (ty base : TypeId) :
    Jointly (Synth.variantAtHand? ty base) (Synth.variantAtHand? ty base) s s' fun v t v' t' =>
      v' = v ∧ t = s ∧ t' = s' ∧ (v = none → s.types.isReadonly base = .ok false) := by
  unfold Synth.variantAtHand? knownVariant?
  refine jointly_bind ((jointly_reading_of_eq ?_).imp ?_)
  · rw [h.pending, h.memo]
  rintro _ t known t' ⟨rfl, rfl, rfl, -⟩
  cases known with
  | some v => exact jointly_pure.2 ⟨rfl, rfl, rfl, by simp⟩
  | none =>
    refine jointly_bind ((jointly_reading_of_eq ?_).imp ?_)
    · rw [h.types]
    rintro _ t b t' ⟨rfl, rfl, rfl, hb⟩
    refine jointly_pure.2 ⟨rfl, rfl, rfl, fun hnone => ?_⟩
    cases b with
    | true => simp at hnone
    | false => exact hb

/-- A structure that is not readonly was there at the beginning. -/
theorem lt_of_writable (h : o.Unison q s s') {e : TypeEntry} (he : s.types.find base = .ok e)
    (hw : s.types.isReadonly base = .ok false) (hfields : e.ty.fields?.isSome) :
    base.index < o.types.entries.size := by
  by_contra hle
  have hreadonly := h.readonly base e he (Nat.le_of_not_lt hle) hfields
  obtain ⟨e', he', hw⟩ := TypeTable.isReadonly_eq_ok_iff.1 hw
  obtain rfl := Except.ok.inj (he.symm.trans he')
  simp [TypeEntry.isReadonly, hreadonly] at hw

/-- Variants of all parts are found in unison. -/
theorem mapM_cloner (h : o.Unison q s s') (hcl : o.Concerted q cl cl') (ms : List TypeId) :
    Jointly (ms.mapM (cl stamp)) (ms.mapM (cl' stamp')) s s' fun vs t vs' t' =>
      vs' = vs ∧ o.Unison q t t' := by
  refine (jointly_mapM (R := (· = ·)) (I := o.Unison q) h fun m _ t t' ht =>
    (hcl stamp stamp' m t t' ht).imp fun v u v' u' ⟨hv, hu⟩ => ⟨hv.symm, hu⟩).imp ?_
  rintro vs t vs' t' ⟨hvs, ht⟩
  rw [List.forall₂_eq_eq_eq] at hvs
  exact ⟨hvs.symm, ht⟩

section Step

variable (h : o.Unison q s s') (ho : o.types.FieldsNamed o.symbols) (hcl : o.Concerted q cl cl')
  (hsettings : ctx'.settings = ctx.settings)
include h ho hcl hsettings

/-- The same variant is made. -/
theorem makeVariant? (hw : s.types.isReadonly base = .ok false) :
    Jointly (Synth.makeVariant? ctx cl stamp ty base)
    (Synth.makeVariant? ctx' cl' stamp' ty base) s s'
      fun v t v' t' => v' = v ∧ o.Unison q t t' := by
  have hsome : ∀ {x x' : Synth TypeId} {u u'},
      Jointly x x' u u' (fun v t v' t' => v' = v ∧ o.Unison q t t') →
      Jointly (some <$> x) (some <$> x') u u' fun v t v' t' => v' = v ∧ o.Unison q t t' :=
    fun hx => jointly_map (hx.imp fun v t v' t' ⟨hv, ht⟩ => ⟨congrArg some hv, ht⟩)
  have hadd : ∀ {u u'}, o.Unison q u u' → ∀ made : Ty,
      Jointly (some <$> Synth.addReadonly base made) (some <$> Synth.addReadonly base made) u u'
        fun v t v' t' => v' = v ∧ o.Unison q t t' :=
    fun hu made => hsome ((hu.addReadonly base made).imp fun v t v' t' ⟨hv, _, ht⟩ => ⟨hv, ht⟩)
  unfold Synth.makeVariant?
  refine jointly_bind ((h.entry base).imp ?_)
  rintro _ t e t' ⟨rfl, rfl, rfl, he⟩
  have hold := h.lt_of_writable he hw
  cases hty : e.ty with
  | placeholder | ref _ => exact jointly_stop
  | record r => exact hsome (h.makeClone ho hcl hsettings (hold (by simp [hty, Ty.fields?])))
  | object fields => exact hsome (h.makeClone ho hcl hsettings (hold (by simp [hty, Ty.fields?])))
  | map constraint =>
    refine jointly_bind ((hcl stamp stamp' constraint t t' h).imp ?_)
    rintro _ t v t' ⟨rfl, h⟩
    exact hadd h _
  | union members =>
    refine jointly_bind ((h.mapM_cloner hcl members).imp ?_)
    rintro _ t vs t' ⟨rfl, h⟩
    exact hadd h _
  | any => exact hadd h _
  | anydata => exact hadd h _
  | _ => exact jointly_pure.2 ⟨rfl, h⟩

/-- **One step finds or makes the same variant.** -/
theorem cloneStep :
    Jointly (Synth.cloneStep ctx cl stamp ty) (Synth.cloneStep ctx' cl' stamp' ty) s s'
      fun v t v' t' => v' = v ∧ o.Unison q t t' := by
  unfold Synth.cloneStep
  refine jointly_bind ((h.variantAtHand? ty ty).imp ?_)
  rintro _ t hand t' ⟨rfl, rfl, rfl, -⟩
  cases hand with
  | some v => exact jointly_pure.2 ⟨rfl, h⟩
  | none =>
    refine jointly_bind ((jointly_reading_of_eq ?_).imp ?_)
    · rw [h.types]
    rintro _ t base t' ⟨rfl, rfl, rfl, -⟩
    refine jointly_bind ((h.variantAtHand? ty base).imp ?_)
    rintro _ t hand t' ⟨rfl, rfl, rfl, hw⟩
    cases hand with
    | some v => exact jointly_pure.2 ⟨rfl, h⟩
    | none =>
      refine jointly_bind ((h.makeVariant? ho hcl hsettings (hw rfl)).imp ?_)
      rintro _ t made t' ⟨rfl, h⟩
      cases made with
      | none => exact jointly_pure.2 ⟨rfl, h⟩
      | some v =>
        refine jointly_bind ((h.remember base v).imp fun _ t _ t' h => ?_)
        refine jointly_bind ((h.remember ty v).imp fun _ t _ t' h => ?_)
        exact jointly_pure.2 ⟨rfl, h⟩

end Step

end Session.Unison

/-- **Searches of the same depth find the same variant.** -/
theorem Synth.concerted_readonlyWithin {o : Session} {q : Package} {ctx ctx' : Context}
    (ho : o.types.FieldsNamed o.symbols) (hsettings : ctx'.settings = ctx.settings) (n : Nat) :
    o.Concerted q (readonlyWithin ctx n) (readonlyWithin ctx' n) := by
  induction n with
  | zero => exact fun stamp stamp' ty s s' h => jointly_stop
  | succ n ih => exact fun stamp stamp' ty s s' h => h.cloneStep ho ih hsettings

/-- **Two searches from one session find the same variant**, and end in unison. -/
theorem Synth.unison_of_readonlyVariant {o t t' : Session} {q : Package} {ctx ctx' : Context}
    {stamp stamp' : Stamp} {ty v v' : TypeId} (ho : o.types.FieldsNamed o.symbols)
    (hsettings : ctx'.settings = ctx.settings) (h : readonlyVariant ctx stamp ty o = .ok v t)
    (h' : readonlyVariant ctx' stamp' ty { o with package := q } = .ok v' t') :
    v' = v ∧ o.Unison q t t' := by
  unfold readonlyVariant at h h'
  exact concerted_readonlyWithin ho hsettings (cloneDepth o.types.entries.size) stamp stamp' ty o
    { o with package := q } (.start o q) v t v' t' h h'

namespace Compilation

/-- The definitions `ds` have been appended in the package at a position. -/
def Appends (c d : Compilation) (position : Nat) (ds : List TypeDefinition) : Prop :=
  ∃ p p', c.packages[position]? = some p ∧ d.packages[position]? = some p' ∧
    p'.typeDefinitions = p.typeDefinitions ++ ds

/-- **The answer to a request does not depend on who asks**, if all symbols of fields are there: in
other packages, for another owner and at another place, the same variant is found, the tables of
types and clones become the same, and what is made is alike. -/
theorem request_unison (c : Compilation) (packages : Array Package) (slots : CloneSlots)
    (r r' : CloneRequest) (v v' : TypeId) (d d' : Compilation)
    (hnamed : c.types.FieldsNamed c.symbols) (hty : r'.ty = r.ty)
    (hr : request slots r c = .ok v d) (hr' : request slots r' { c with packages } = .ok v' d') :
    v' = v ∧ d'.types = d.types ∧ d'.memos = d.memos ∧ d'.pendings = d.pendings ∧
      d.symbols.Alike d'.symbols ∧
      ∃ ds ds', c.Appends d r.environment.package ds ∧
        Appends { c with packages } d' r'.environment.package ds' ∧
        List.Forall₂ TypeDefinition.Alike ds ds' := by
  obtain ⟨p, t, hp, hsearch, rfl⟩ := request_eq_ok hr
  obtain ⟨p', t', hp', hsearch', rfl⟩ := request_eq_ok hr'
  rw [hty] at hsearch'
  obtain ⟨hv, h⟩ : v' = v ∧ (c.session p slots).Unison p' t t' :=
    unison_of_readonlyVariant hnamed (by rfl) hsearch hsearch'
  obtain ⟨ds, ds', hds, hds', halike⟩ := h.definitions
  refine ⟨hv, h.types, ?_, ?_, h.symbols, ds, ds', ⟨p, t.package, hp, ?_, hds⟩,
    ⟨p', t'.package, hp', ?_, hds'⟩, halike⟩
  · exact congrArg (c.memos.insert slots.memo) h.memo
  · exact congrArg (c.pendings.insert slots.pending) h.pending
  · exact Array.getElem?_setIfInBounds_self_of_lt (Array.getElem?_eq_some_iff.1 hp).1
  · exact Array.getElem?_setIfInBounds_self_of_lt (Array.getElem?_eq_some_iff.1 hp').1

/-- A request from another package, at another place. -/
def strangerRequest (ty : TypeId) : CloneRequest :=
  { environment := ⟨0, ⟨1⟩⟩, stamp := ⟨{ start := 3, stop := 4 }, ⟨1⟩, ⟨1⟩⟩, ty }

/-- A package other than that of `linked`. -/
def strangerPackage : Package := { id := ⟨1⟩, name := "other" }

theorem linked_unison : ∃ v v' d d', request {} (appRequest ⟨14⟩) linked = .ok v d ∧
    request {} (strangerRequest ⟨14⟩) { linked with packages := #[strangerPackage] } = .ok v' d' ∧
      v' = v ∧ d'.types = d.types ∧ d'.memos = d.memos ∧ d'.pendings = d.pendings ∧
        d.symbols.Alike d'.symbols ∧ ∃ ds ds', linked.Appends d 0 ds ∧
          Appends { linked with packages := #[strangerPackage] } d' 0 ds' ∧
          List.Forall₂ TypeDefinition.Alike ds ds' := by
  have hrun : answers? (request {} (appRequest ⟨14⟩) linked) = some ⟨16⟩ := by decide +kernel
  have hrun' : answers? (request {} (strangerRequest ⟨14⟩)
      { linked with packages := #[strangerPackage] }) = some ⟨16⟩ := by
    decide +kernel
  obtain ⟨d, hd⟩ := answers?_eq_some hrun
  obtain ⟨d', hd'⟩ := answers?_eq_some hrun'
  exact ⟨_, _, d, d', hd, hd', request_unison linked #[strangerPackage] {} (appRequest ⟨14⟩)
    (strangerRequest ⟨14⟩) _ _ d d' (by decide +kernel) rfl hd hd'⟩

/-- The names of the fields of a structure as first written. -/
def writtenNames? (c : Compilation) (ty : TypeId) : Option (List String) :=
  (c.types.find ty).toOption.bind fun e => e.ty.fields?.map (·.values.map (·.writtenName))

/-- A record that names a symbol and has two fields: one of a nameless type, and one that names a
symbol which is not there yet. A name has been handed out in the package `app`, and none in the
other one. -/
def premature : Compilation :=
  (app [("", ⟨14⟩), ("R", ⟨15⟩)] [appRecord ⟨1⟩ [],
    { symbol := some ⟨2⟩
      ty := .record { fields := .ofList [("f", { name := "f", ty := ⟨14⟩ }),
        ("g", { name := "g", ty := Builtin.int, symbol := some ⟨4⟩ })] } }]).execute
    [.addPackage ⟨1⟩ "other", .nextName .anonymousType ⟨0⟩]

/-- **The condition on the symbols of fields is needed**: a field that names a symbol which is only
made on the way takes its original name from that, and the package names what is made. -/
theorem premature_disagrees : ∃ v v' d d', request {} (appRequest ⟨15⟩) premature = .ok v d ∧
    request {} { appRequest ⟨15⟩ with stamp := ⟨{}, ⟨1⟩, ⟨0⟩⟩ } premature = .ok v' d' ∧
      d'.types ≠ d.types := by
  have hrun : EndsWell (fun _ c => c.writtenNames? ⟨16⟩ = some ["f", "$anonType$_1"])
      (request {} (appRequest ⟨15⟩) premature) := by
    decide +kernel
  have hrun' : EndsWell (fun _ c => c.writtenNames? ⟨16⟩ = some ["f", "$anonType$_0"])
      (request {} { appRequest ⟨15⟩ with stamp := ⟨{}, ⟨1⟩, ⟨0⟩⟩ } premature) := by
    decide +kernel
  obtain ⟨v, d, hd, hnames⟩ := hrun
  obtain ⟨v', d', hd', hnames'⟩ := hrun'
  refine ⟨v, v', d, d', hd, hd', fun htypes => ?_⟩
  rw [writtenNames?, htypes, ← writtenNames?, hnames] at hnames'
  exact absurd hnames' (by decide)

end Compilation

end StructuralTypes
