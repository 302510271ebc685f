import DomHost.Store.Create
import Mathlib.Logic.Basic

/-!
# Outcomes of operations

An operation that may fail keeps what it did before failing, so a fact about it is a fact about both
of its ends. Facts about composite operations are put together from those of their steps.

* `final?`: the state in which an operation succeeds;
* `Ends`: what holds of the result and the state when an operation succeeds, and of the state when it
  fails;
* `Ends.bind`: one operation after another;
* **`Ends.forM`**, **`Ends.foldlM`**: a loop keeps what each of its rounds keeps.
-/

namespace DomHost

variable {ε σ α β : Type}

theorem bind_of_ok {x : EStateM ε σ α} {f : α → EStateM ε σ β} {s t : σ} {a : α}
    (h : x s = .ok a t) : (x >>= f) s = f a t := by
  change EStateM.bind x f s = _
  rw [EStateM.bind, h]

theorem bind_of_error {x : EStateM ε σ α} {s t : σ} {e : ε} (h : x s = .error e t)
    (f : α → EStateM ε σ β) : (x >>= f) s = .error e t := by
  change EStateM.bind x f s = _
  rw [EStateM.bind, h]

theorem bind_eq_of_eq {x y : EStateM ε σ α} {s t : σ} (h : x s = y t) (f : α → EStateM ε σ β) :
    (x >>= f) s = (y >>= f) t := by
  change EStateM.bind x f s = EStateM.bind y f t
  rw [EStateM.bind, EStateM.bind, h]

theorem get_bind_apply (f : σ → EStateM ε σ β) (s : σ) : (MonadState.get >>= f) s = f s s := rfl

theorem discard_of_ok {x : EStateM ε σ α} {s t : σ} {a : α} (h : x s = .ok a t) :
    discard x s = .ok () t := by
  change EStateM.map _ x s = _
  rw [EStateM.map, h]

theorem discard_of_error {x : EStateM ε σ α} {s t : σ} {e : ε} (h : x s = .error e t) :
    discard x s = .error e t := by
  change EStateM.map _ x s = _
  rw [EStateM.map, h]

/-- To let go what an operation returns is to go on without it. -/
theorem discard_eq_bind (x : EStateM ε σ α) : discard x = x >>= fun _ => pure PUnit.unit := by
  rw [Functor.discard, map_const, Function.comp_apply, ← bind_pure_comp]

theorem discard_bind (x : EStateM ε σ α) (f : PUnit → EStateM ε σ β) :
    discard x >>= f = x >>= fun _ => f PUnit.unit := by
  rw [discard_eq_bind, bind_assoc]
  simp only [pure_bind]

/-- The state in which an operation succeeds, if it does. -/
def final? (x : EStateM ε σ α) (s : σ) : Option σ :=
  match x s with
  | .ok _ t => some t
  | .error _ _ => none

/-- An operation that is seen to succeed. -/
theorem exists_of_final? {x : EStateM ε σ α} {s : σ} {p : σ → Bool} (h : (final? x s).any p = true) :
    ∃ a t, x s = .ok a t ∧ p t = true := by
  unfold final? at h
  cases hx : x s with
  | ok a t =>
    rw [hx] at h
    exact ⟨a, t, rfl, h⟩
  | error e t =>
    rw [hx] at h
    cases h

/-- A result that is seen to be a success. -/
theorem exists_of_toOption {x : Except ε α} {p : α → Bool} (h : x.toOption.any p = true) :
    ∃ a, x = .ok a ∧ p a = true := by
  cases x with
  | ok a => exact ⟨a, rfl, h⟩
  | error e => cases h

/-- Started in a state, an operation ends in success with the first fact or in a fault with the second. -/
def Ends (x : EStateM ε σ α) (s : σ) (Q : α → σ → Prop) (E : σ → Prop) : Prop :=
  match x s with
  | .ok a s => Q a s
  | .error _ s => E s

namespace Ends

variable {x : EStateM ε σ α} {s : σ} {Q : α → σ → Prop} {E : σ → Prop}

theorem mono (h : Ends x s Q E) {Q' : α → σ → Prop} {E' : σ → Prop}
    (hq : ∀ a s, Q a s → Q' a s) (he : ∀ s, E s → E' s) : Ends x s Q' E' := by
  unfold Ends at h ⊢
  cases hx : x s with
  | ok a s' => rw [hx] at h; exact hq a s' h
  | error e s' => rw [hx] at h; exact he s' h

theorem and (h : Ends x s Q E) {Q' : α → σ → Prop} {E' : σ → Prop} (h' : Ends x s Q' E') :
    Ends x s (fun a s => Q a s ∧ Q' a s) fun s => E s ∧ E' s := by
  unfold Ends at h h' ⊢
  cases hx : x s with
  | ok a s' => rw [hx] at h h'; exact ⟨h, h'⟩
  | error e s' => rw [hx] at h h'; exact ⟨h, h'⟩

theorem bind {f : α → EStateM ε σ β} {Q : β → σ → Prop} {R : α → σ → Prop} (h : Ends x s R E)
    (hf : ∀ a s, R a s → Ends (f a) s Q E) : Ends (x >>= f) s Q E := by
  change Ends (EStateM.bind x f) s Q E
  unfold Ends at h
  unfold Ends EStateM.bind
  cases hx : x s with
  | ok a s' => rw [hx] at h; exact hf a s' h
  | error e s' => rw [hx] at h; exact h

theorem pure {a : α} (h : Q a s) : Ends (pure a : EStateM ε σ α) s Q E := h

theorem throw {e : ε} (h : E s) : Ends (MonadExcept.throw e : EStateM ε σ α) s Q E := h

theorem modify {f : σ → σ} {Q : PUnit → σ → Prop} (h : Q ⟨⟩ (f s)) :
    Ends (modify f : EStateM ε σ PUnit) s Q E := h

theorem modifyGet {f : σ → α × σ} (h : Q (f s).1 (f s).2) :
    Ends (modifyGet f : EStateM ε σ α) s Q E := h

theorem liftResult {x : Except ε α} (hq : ∀ a, x = .ok a → Q a s) (he : E s) :
    Ends (liftResult x : EStateM ε σ α) s Q E := by
  cases x with
  | ok a => exact hq a rfl
  | error e => exact he

/-- Reading the state first. -/
theorem get_bind {f : σ → EStateM ε σ β} {Q : β → σ → Prop} (h : Ends (f s) s Q E) :
    Ends (MonadState.get >>= f) s Q E := h

/-- Refusing to go on. -/
theorem throw_bind {e : ε} {f : α → EStateM ε σ β} {Q : β → σ → Prop} (h : E s) :
    Ends (MonadExcept.throw e >>= f) s Q E := h

theorem ite {c : Prop} [Decidable c] {y : EStateM ε σ α} (ht : c → Ends x s Q E)
    (hf : ¬ c → Ends y s Q E) : Ends (if c then x else y) s Q E := by
  split
  · exact ht ‹_›
  · exact hf ‹_›

theorem map {f : α → β} {Q : β → σ → Prop} (h : Ends x s (fun a s => Q (f a) s) E) :
    Ends (f <$> x) s Q E := by
  change Ends (EStateM.map f x) s Q E
  unfold Ends at h
  unfold Ends EStateM.map
  cases hx : x s with
  | ok a s' => rw [hx] at h; exact h
  | error e s' => rw [hx] at h; exact h

theorem discard (h : Ends x s Q E) : Ends (discard x) s (fun _ s => ∃ a, Q a s) E :=
  map (h.mono (fun a _ hq => ⟨a, hq⟩) fun _ he => he)

theorem trivial : Ends x s (fun _ _ => True) fun _ => True := by
  unfold Ends
  split <;> exact True.intro

theorem of_eq {a : α} {s' : σ} (h : x s = .ok a s') (hq : Q a s') : Ends x s Q E := by
  unfold Ends
  rw [h]
  exact hq

/-- What an operation succeeds with is what it ends with. -/
theorem ok (h : Ends x s Q E) {a : α} {s' : σ} (hx : x s = .ok a s') : Q a s' := by
  unfold Ends at h
  rwa [hx] at h

/-- What an operation fails with is what it ends with. -/
theorem error (h : Ends x s Q E) {e : ε} {s' : σ} (hx : x s = .error e s') : E s' := by
  unfold Ends at h
  rwa [hx] at h

/-- An operation that succeeds does not fail. -/
theorem succeeds (h : Ends x s Q E) {a : α} {s' : σ} (hx : x s = .ok a s') : Ends x s Q fun _ => False :=
  of_eq hx (h.ok hx)

theorem of_eq_error {e : ε} {s' : σ} (h : x s = .error e s') (he : E s') : Ends x s Q E := by
  unfold Ends
  rw [h]
  exact he

/-! ## Loops -/

/-- **A loop keeps what every round keeps.** -/
theorem forM {f : α → EStateM ε σ PUnit} {I : σ → Prop} {l : List α}
    (hf : ∀ a ∈ l, ∀ s, I s → Ends (f a) s (fun _ => I) I) (h : I s) :
    Ends (l.forM f) s (fun _ => I) I := by
  induction l generalizing s with
  | nil => exact h
  | cons a l ih =>
    change Ends (f a >>= fun _ => l.forM f) s _ _
    refine bind (hf a List.mem_cons_self s h) fun _ s hs => ?_
    exact ih (fun b hb => hf b (List.mem_cons_of_mem a hb)) hs

/-- **A loop that carries a value along keeps what every round keeps.** -/
theorem foldlM {f : β → α → EStateM ε σ β} {I : σ → Prop} {l : List α} {b : β}
    (hf : ∀ b, ∀ a ∈ l, ∀ s, I s → Ends (f b a) s (fun _ => I) I) (h : I s) :
    Ends (l.foldlM f b) s (fun _ => I) I := by
  induction l generalizing s b with
  | nil => exact h
  | cons a l ih =>
    rw [List.foldlM_cons]
    refine bind (hf b a List.mem_cons_self s h) fun b s hs => ?_
    exact ih (fun b a ha => hf b a (List.mem_cons_of_mem _ ha)) hs

end Ends

end DomHost
