import DomHost.Proofs.Outcome

/-!
# Two runs side by side

An operation that sees of its state only what two states have in common takes the same course from
both. The first run may also be cut short by a fault that is excused, as when there is less to read.
Two operations on states of different kinds may go side by side in the same way, step by step.

* `Alike`: the same result or fault, in related states;
* `Abreast`: two operations, each from a state of its own, that end alike;
* **`Abreast.bind`**, **`Abreast.forM`**: one step after another, and loops;
* `Follows`: from related states an operation ends alike, excused faults apart;
* **`Follows.bind`**: one operation after another;
* **`Follows.forM`**, **`Follows.mapM`**: loops.
-/

namespace DomHost

variable {ε σ τ α β : Type}

/-- The same result or the same fault, in states that are related. -/
inductive Alike (R : σ → τ → Prop) : EStateM.Result ε σ α → EStateM.Result ε τ α → Prop
  | ok (a : α) {s : σ} {t : τ} (h : R s t) : Alike R (.ok a s) (.ok a t)
  | error (e : ε) {s : σ} {t : τ} (h : R s t) : Alike R (.error e s) (.error e t)

namespace Alike

variable {R : σ → τ → Prop}

theorem of_ok {a : α} {s : σ} {y : EStateM.Result ε τ α} (h : Alike R (.ok a s) y) : ∃ t, y = .ok a t ∧ R s t := by
  cases h with
  | ok _ hst => exact ⟨_, rfl, hst⟩

theorem of_error {e : ε} {s : σ} {y : EStateM.Result ε τ α} (h : Alike R (.error e s) y) :
    ∃ t, y = .error e t ∧ R s t := by
  cases h with
  | error _ hst => exact ⟨_, rfl, hst⟩

/-- What ends like a third, ends alike. -/
theorem join {R : σ → σ → Prop} {x y z : EStateM.Result ε σ α} (hR : ∀ s t u, R s t → R s u → R t u)
    (hy : Alike R x y) (hz : Alike R x z) : Alike R y z := by
  cases hy with
  | ok a hst =>
    obtain ⟨_, rfl, hsu⟩ := hz.of_ok
    exact .ok a (hR _ _ _ hst hsu)
  | error e hst =>
    obtain ⟨_, rfl, hsu⟩ := hz.of_error
    exact .error e (hR _ _ _ hst hsu)

end Alike

/-! ## Two operations -/

/-- Two operations, each from a state of its own, end alike. -/
def Abreast (R : σ → τ → Prop) (x : EStateM ε σ α) (s : σ) (y : EStateM ε τ α) (t : τ) : Prop :=
  Alike R (x s) (y t)

namespace Abreast

variable {R : σ → τ → Prop} {x : EStateM ε σ α} {y : EStateM ε τ α} {s : σ} {t : τ}

/-- What goes on abreast after a step ends alike, where the outcome of the step on the second side is known. -/
theorem bind_ends {f : α → EStateM ε σ β} {g : α → EStateM ε τ β} {Q : α → τ → Prop} {E : τ → Prop}
    (h : Abreast R x s y t) (hq : Ends y t Q E)
    (hfg : ∀ a s t, R s t → Q a t → Abreast R (f a) s (g a) t) : Abreast R (x >>= f) s (y >>= g) t := by
  unfold Abreast at h ⊢
  cases hs : x s with
  | ok a s' =>
    rw [hs] at h
    obtain ⟨t', ht, h'⟩ := h.of_ok
    rw [bind_of_ok hs, bind_of_ok ht]
    exact hfg a s' t' h' (hq.ok ht)
  | error e s' =>
    rw [hs] at h
    obtain ⟨t', ht, h'⟩ := h.of_error
    rw [bind_of_error hs, bind_of_error ht]
    exact .error e h'

/-- **What goes on abreast ends alike.** -/
theorem bind {f : α → EStateM ε σ β} {g : α → EStateM ε τ β} (h : Abreast R x s y t)
    (hfg : ∀ a s t, R s t → Abreast R (f a) s (g a) t) : Abreast R (x >>= f) s (y >>= g) t :=
  h.bind_ends .trivial fun a s t h _ => hfg a s t h

theorem pure (a : α) (h : R s t) : Abreast R (pure a : EStateM ε σ α) s (pure a : EStateM ε τ α) t := .ok a h

theorem throw (e : ε) (h : R s t) :
    Abreast R (MonadExcept.throw e : EStateM ε σ α) s (MonadExcept.throw e : EStateM ε τ α) t := .error e h

/-- Refusing to go on, on both sides. -/
theorem throw_bind (e : ε) {f : α → EStateM ε σ β} {g : α → EStateM ε τ β} (h : R s t) :
    Abreast R (MonadExcept.throw e >>= f) s (MonadExcept.throw e >>= g) t := .error e h

/-- A look at the state on both sides. -/
theorem get_bind {f : σ → EStateM ε σ β} {g : τ → EStateM ε τ β} (h : Abreast R (f s) s (g t) t) :
    Abreast R (MonadState.get >>= f) s (MonadState.get >>= g) t := h

/-- A look at something on the first side only. -/
theorem bind_left {f : β → EStateM ε σ α} {z : EStateM ε σ β} {b : β} (hz : z s = .ok b s)
    (h : Abreast R (f b) s y t) : Abreast R (z >>= f) s y t := by
  rw [Abreast, bind_of_ok hz]
  exact h

/-- A look at something on the second side only. -/
theorem bind_right {g : β → EStateM ε τ α} {z : EStateM ε τ β} {b : β} (hz : z t = .ok b t)
    (h : Abreast R x s (g b) t) : Abreast R x s (z >>= g) t := by
  rw [Abreast, bind_of_ok hz]
  exact h

theorem modify {f : σ → σ} {g : τ → τ} (h : R (f s) (g t)) :
    Abreast R (modify f : EStateM ε σ PUnit) s (modify g : EStateM ε τ PUnit) t := .ok PUnit.unit h

/-- One choice on both sides. -/
theorem ite {c d : Prop} [Decidable c] [Decidable d] {x' : EStateM ε σ α} {y' : EStateM ε τ α} (hcd : c ↔ d)
    (ht : d → Abreast R x s y t) (hf : ¬ d → Abreast R x' s y' t) :
    Abreast R (if c then x else x') s (if d then y else y') t := by
  by_cases hd : d
  · rw [if_pos hd, if_pos (hcd.mpr hd)]
    exact ht hd
  · rw [if_neg hd, if_neg (hcd.not.mpr hd)]
    exact hf hd

theorem discard (h : Abreast R x s y t) : Abreast R (discard x) s (discard y) t := by
  rw [discard_eq_bind, discard_eq_bind]
  exact h.bind fun _ _ _ h => pure PUnit.unit h

theorem liftResult (r : Except ε α) (h : R s t) : Abreast R (liftResult r) s (liftResult r) t := by
  cases r with
  | ok a => exact .ok a h
  | error e => exact .error e h

/-- **A loop ends alike if each of its rounds does.** -/
theorem forM {f : α → EStateM ε σ PUnit} {g : α → EStateM ε τ PUnit}
    (hfg : ∀ a s t, R s t → Abreast R (f a) s (g a) t) (l : List α) (h : R s t) :
    Abreast R (l.forM f) s (l.forM g) t := by
  induction l generalizing s t with
  | nil => exact pure PUnit.unit h
  | cons a l ih => exact (hfg a s t h).bind fun _ s t h => ih h

end Abreast

/-- From related states an operation ends alike, unless the first run ends with an excused fault. -/
def Follows (R : σ → σ → Prop) (P : ε → Prop) (x : EStateM ε σ α) : Prop :=
  ∀ s t, R s t → Alike R (x s) (x t) ∨ ∃ e s', x s = .error e s' ∧ P e

namespace Follows

variable {R : σ → σ → Prop} {P : ε → Prop} {x : EStateM ε σ α}

/-- Without excuses the two runs end alike. -/
theorem alike (h : Follows R (fun _ => False) x) {s t : σ} (hst : R s t) : Alike R (x s) (x t) :=
  (h s t hst).resolve_right fun ⟨_, _, _, hf⟩ => hf

theorem pure (a : α) : Follows R P (pure a : EStateM ε σ α) := fun _ _ h => .inl (.ok a h)

theorem throw (e : ε) : Follows R P (MonadExcept.throw e : EStateM ε σ α) :=
  fun _ _ h => .inl (.error e h)

/-- **Operations that follow one after the other.** -/
theorem bind {f : α → EStateM ε σ β} (hx : Follows R P x) (hf : ∀ a, Follows R P (f a)) :
    Follows R P (x >>= f) := by
  intro s t h
  rcases hx s t h with hend | ⟨e, s', he, hp⟩
  · cases hs : x s with
    | ok a s' =>
      rw [hs] at hend
      obtain ⟨t', ht, h'⟩ := hend.of_ok
      rw [bind_of_ok hs, bind_of_ok ht]
      exact hf a s' t' h'
    | error e s' =>
      rw [hs] at hend
      obtain ⟨t', ht, h'⟩ := hend.of_error
      rw [bind_of_error hs, bind_of_error ht]
      exact .inl (.error e h')
  · exact .inr ⟨e, s', bind_of_error he f, hp⟩

/-- Refusing to go on. -/
theorem throw_bind (e : ε) (f : α → EStateM ε σ β) :
    Follows R P (MonadExcept.throw e >>= f) := fun _ _ h => .inl (.error e h)

/-- A look at the state that shows the same in both runs. -/
theorem get_bind {f : σ → EStateM ε σ β} (hsame : ∀ s t, R s t → f t = f s)
    (hf : ∀ s, Follows R P (f s)) : Follows R P (MonadState.get >>= f) := by
  intro s t h
  change Alike R (f s s) (f t t) ∨ ∃ e s', f s s = _ ∧ P e
  rw [hsame s t h]
  exact hf s s t h

theorem modify {f : σ → σ} (hf : ∀ s t, R s t → R (f s) (f t)) :
    Follows R P (modify f : EStateM ε σ PUnit) := by
  intro s t h
  change Alike R (.ok PUnit.unit (f s)) (.ok PUnit.unit (f t)) ∨ _
  exact .inl (.ok _ (hf s t h))

theorem ite {c : Prop} [Decidable c] {y : EStateM ε σ α} (hx : Follows R P x)
    (hy : Follows R P y) : Follows R P (if c then x else y) := by
  split
  · exact hx
  · exact hy

theorem discard (h : Follows R P x) : Follows R P (discard x) := by
  rw [discard_eq_bind]
  exact h.bind fun _ => pure PUnit.unit

/-- A look at the state that shows something else, but leads to the same. -/
theorem get_bind_of_alike {f : σ → EStateM ε σ β} (hf : ∀ s t, R s t → Alike R (f s s) (f t t)) :
    Follows R P (MonadState.get >>= f) := fun s t h => .inl (hf s t h)

/-! ## Loops -/

/-- **A loop follows if each of its rounds does.** -/
theorem forM {f : α → EStateM ε σ PUnit} (hf : ∀ a, Follows R P (f a)) (l : List α) :
    Follows R P (l.forM f) := by
  induction l with
  | nil => exact pure PUnit.unit
  | cons a l ih => exact (hf a).bind fun _ => ih

/-- **A loop that collects results follows if each of its rounds does.** -/
theorem mapM {f : α → EStateM ε σ β} (hf : ∀ a, Follows R P (f a)) (l : List α) :
    Follows R P (l.mapM f) := by
  induction l with
  | nil =>
    rw [List.mapM_nil]
    exact pure []
  | cons a l ih =>
    rw [List.mapM_cons]
    exact (hf a).bind fun b => ih.bind fun bs => pure (b :: bs)

end Follows

end DomHost
