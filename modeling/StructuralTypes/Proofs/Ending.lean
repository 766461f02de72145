import StructuralTypes.Stateful

/-!
# How an operation ends

`Ends x s Q E` says what becomes of the operation `x` in the state `s`: a result and the state it
leaves satisfy `Q`, and a stop and the state it leaves satisfy `E`. There is one rule for each way
of building operations, whatever they work on, so a statement about an operation is taken apart
along its steps.

Results:
* `Ends.imp`: a weaker statement.
* `ends_bind`, `ends_pure`, `ends_map`, `ends_reading`: the rules for single steps.
* **`ends_mapM`**: what every element keeps, a whole list keeps.
* `Upholds`, `Upholds.bind`, `Upholds.mapM`: what an operation keeps of any state.
* `EndsWell`: the same for results that were computed, where it can be decided.
-/

namespace StructuralTypes

variable {σ α β : Type} {x : Stateful σ α} {s : σ} {Q Q' : α → σ → Prop} {E E' : Stop → σ → Prop}

/-- Run in `s`, the operation ends with a result as `Q` says or stops as `E` says. -/
def Ends (x : Stateful σ α) (s : σ) (Q : α → σ → Prop) (E : Stop → σ → Prop) : Prop :=
  match x s with
  | .ok a t => Q a t
  | .error e t => E e t

theorem ends_iff :
    Ends x s Q E ↔ (∀ a t, x s = .ok a t → Q a t) ∧ ∀ e t, x s = .error e t → E e t := by
  unfold Ends
  cases x s <;> simp

theorem Ends.of_ok (h : Ends x s Q E) {a : α} {t : σ} (ha : x s = .ok a t) : Q a t :=
  (ends_iff.1 h).1 a t ha

theorem Ends.of_error (h : Ends x s Q E) {e : Stop} {t : σ} (he : x s = .error e t) : E e t :=
  (ends_iff.1 h).2 e t he

theorem Ends.imp (h : Ends x s Q E) (hQ : ∀ a t, Q a t → Q' a t) (hE : ∀ e t, E e t → E' e t) :
    Ends x s Q' E' :=
  ends_iff.2 ⟨fun a t ha => hQ a t (h.of_ok ha), fun e t he => hE e t (h.of_error he)⟩

/-! ## Single steps -/

theorem ends_of_ok {a : α} {t : σ} (hx : x s = .ok a t) : Ends x s Q E ↔ Q a t := by
  unfold Ends
  rw [hx]

theorem ends_of_error {e : Stop} {t : σ} (hx : x s = .error e t) : Ends x s Q E ↔ E e t := by
  unfold Ends
  rw [hx]

/-- After a step that ends well comes the next one. -/
theorem bind_of_ok {f : α → Stateful σ β} {a : α} {t : σ} (hx : x s = .ok a t) :
    (x >>= f) s = f a t := by
  show EStateM.bind x f s = f a t
  unfold EStateM.bind
  rw [hx]

/-- After a step that stops comes nothing. -/
theorem bind_of_error {f : α → Stateful σ β} {e : Stop} {t : σ} (hx : x s = .error e t) :
    (x >>= f) s = .error e t := by
  show EStateM.bind x f s = .error e t
  unfold EStateM.bind
  rw [hx]

theorem ends_pure {a : α} : Ends (pure a) s Q E ↔ Q a s := Iff.rfl

theorem ends_bind {f : α → Stateful σ β} {Q : β → σ → Prop} :
    Ends (x >>= f) s Q E ↔ Ends x s (fun a t => Ends (f a) t Q E) E := by
  simp only [ends_iff, bind_eq_ok_iff, bind_eq_error_iff]
  constructor
  · rintro ⟨hok, herr⟩
    exact ⟨fun a t ha => ⟨fun b u hb => hok b u ⟨a, t, ha, hb⟩,
      fun e u he => herr e u (.inr ⟨a, t, ha, he⟩)⟩, fun e t he => herr e t (.inl he)⟩
  · rintro ⟨hok, herr⟩
    refine ⟨fun b t ⟨a, u, ha, hb⟩ => (hok a u ha).1 b t hb, ?_⟩
    rintro e t (he | ⟨a, u, ha, he⟩)
    · exact herr e t he
    · exact (hok a u ha).2 e t he

theorem ends_map {f : α → β} {Q : β → σ → Prop} :
    Ends (f <$> x) s Q E ↔ Ends x s (fun a t => Q (f a) t) E := by
  rw [map_eq_pure_bind, ends_bind]
  rfl

theorem ends_discard {Q : Unit → σ → Prop} :
    Ends (discard x) s Q E ↔ Ends x s (fun _ => Q ()) E := by
  unfold Ends
  simp only [discard, Functor.discard, Functor.mapConst, Function.comp, EStateM.map]
  cases x s <;> rfl

/-- A reading ends in the state where it began. -/
theorem ends_reading {read : σ → Except Stop α} :
    Ends (reading read) s Q E ↔
      (∀ a, read s = .ok a → Q a s) ∧ ∀ e, read s = .error e → E e s := by
  unfold Ends reading
  cases read s <;> simp

/-! ## Lists -/

/-- **What every element keeps, the list keeps**: `I pre bs` holds when the elements `pre` are done
and their results are `bs`. -/
theorem ends_mapM {f : α → Stateful σ β} {l : List α} {I : List α → List β → σ → Prop}
    (h0 : I [] [] s)
    (step : ∀ pre bs a post t, l = pre ++ a :: post → I pre bs t →
      Ends (f a) t (fun b u => I (pre ++ [a]) (bs ++ [b]) u) E) :
    Ends (l.mapM f) s (I l) E := by
  -- the part that is left, given the part that is done
  suffices h : ∀ post pre bs t, l = pre ++ post → I pre bs t →
      Ends (post.mapM f) t (fun cs u => I l (bs ++ cs) u) E from h l [] [] s rfl h0
  intro post
  induction post with
  | nil =>
    intro pre bs t hl hI
    rw [List.append_nil] at hl
    rw [List.mapM_nil, ends_pure, List.append_nil, hl]
    exact hI
  | cons a post ih =>
    intro pre bs t hl hI
    rw [List.mapM_cons, ends_bind]
    refine (step pre bs a post t hl hI).imp (fun b u hu => ?_) fun _ _ he => he
    rw [ends_bind]
    refine (ih (pre ++ [a]) (bs ++ [b]) u (by simpa using hl) hu).imp (fun cs v hv => ?_)
      fun _ _ he => he
    rw [ends_pure]
    simpa using hv

/-! ## What is upheld -/

section Upholds

variable {I : σ → Prop} {f : α → Stateful σ β}

/-- If `I` holds of the state, it holds of the state that the operation leaves, however it ends. -/
def Upholds (I : σ → Prop) (x : Stateful σ α) : Prop :=
  ∀ s, I s → Ends x s (fun _ => I) fun _ => I

theorem upholds_pure (a : α) : Upholds I (pure a : Stateful σ α) := fun _ h => h

theorem upholds_stop (e : Stop) : Upholds I (stop e : Stateful σ α) := fun _ h => h

theorem upholds_reading (read : σ → Except Stop α) : Upholds I (reading read) :=
  fun _ h => ends_reading.2 ⟨fun _ _ => h, fun _ _ => h⟩

/-- The second step begins where the first one ended. -/
theorem Upholds.bind_of (hx : Upholds I x)
    (hf : ∀ s a t, I s → x s = .ok a t → Upholds I (f a)) : Upholds I (x >>= f) := by
  intro s h
  refine ends_bind.2 (ends_iff.2 ⟨fun a t ha => ?_, fun e t he => (hx s h).of_error he⟩)
  exact hf s a t h ha t ((hx s h).of_ok ha)

theorem Upholds.bind (hx : Upholds I x) (hf : ∀ a, Upholds I (f a)) : Upholds I (x >>= f) :=
  hx.bind_of fun _ a _ _ _ => hf a

theorem Upholds.mapM {l : List α} (hf : ∀ a, Upholds I (f a)) : Upholds I (l.mapM f) :=
  fun _ h => ends_mapM (I := fun _ _ t => I t) h fun _ _ a _ t _ ht => hf a t ht

theorem Upholds.discarded (hx : Upholds I x) : Upholds I (discard x) :=
  fun s h => ends_discard.2 (hx s h)

end Upholds

/-! ## Results that were computed -/

/-- All went well, and in the end it is as `P` says. -/
def EndsWell (P : α → σ → Prop) (y : EStateM.Result Stop σ α) : Prop :=
  ∃ a t, y = .ok a t ∧ P a t

instance (P : α → σ → Prop) [∀ a t, Decidable (P a t)] :
    (y : EStateM.Result Stop σ α) → Decidable (EndsWell P y)
  | .ok a t => decidable_of_iff (P a t)
      ⟨fun h => ⟨a, t, rfl, h⟩, fun ⟨_, _, heq, h⟩ => by cases heq; exact h⟩
  | .error _ _ => .isFalse fun ⟨_, _, heq, _⟩ => by cases heq

/-- The answer, if there is one. -/
def answers? : EStateM.Result Stop σ α → Option α
  | .ok a _ => some a
  | .error _ _ => none

theorem answers?_eq_some {y : EStateM.Result Stop σ α} {a : α} (h : answers? y = some a) :
    ∃ t, y = .ok a t := by
  cases y with
  | ok b t => exact ⟨t, by rw [Option.some.inj h]⟩
  | error => cases h

/-- Why there is no answer. -/
def stops? : EStateM.Result Stop σ α → Option Stop
  | .ok _ _ => none
  | .error e _ => some e

theorem stops?_eq_some {y : EStateM.Result Stop σ α} {e : Stop} (h : stops? y = some e) :
    ∃ t, y = .error e t := by
  cases y with
  | ok => cases h
  | error e' t => exact ⟨t, by rw [Option.some.inj h]⟩

end StructuralTypes
