import DomHost.Proofs.Outcome

/-!
# What an operation keeps

Many operations change only a part of the state. What they leave alone is a relation between the state
before and the state after, which holds whether the operation succeeds or fails.

* `Lasting`: relations between a state and later ones;
* `Keeps`: the state after an operation is related to the state before it;
* **`Keeps.bind`**, `Keeps.forM`, `Keeps.mapM`: composite operations keep what their steps keep.
-/

namespace DomHost

variable {ε σ α β : Type} {R S T : σ → σ → Prop}

/-- A relation between a state and later ones. -/
structure Lasting (R : σ → σ → Prop) : Prop where
  refl : ∀ s, R s s
  trans : ∀ {s t u}, R s t → R t u → R s u

/-- The state after an operation is related to the state before it. -/
def Keeps (R : σ → σ → Prop) (x : EStateM ε σ α) : Prop := ∀ s, Ends x s (fun _ => R s) (R s)

namespace Keeps

variable {x : EStateM ε σ α}

theorem pure (hR : Lasting R) (a : α) : Keeps R (pure a : EStateM ε σ α) :=
  fun s => Ends.pure (hR.refl s)

theorem throw (hR : Lasting R) (e : ε) : Keeps R (MonadExcept.throw e : EStateM ε σ α) :=
  fun s => Ends.throw (hR.refl s)

/-- **Operations that follow one after the other keep what both keep.** -/
theorem bind (hR : Lasting R) {f : α → EStateM ε σ β} (hx : Keeps R x) (hf : ∀ a, Keeps R (f a)) :
    Keeps R (x >>= f) := by
  intro s
  refine (hx s).bind fun a t hst => ?_
  exact (hf a t).mono (fun _ _ h => hR.trans hst h) fun _ h => hR.trans hst h

theorem mono (hx : Keeps R x) (h : ∀ s t, R s t → S s t) : Keeps S x := fun s =>
  (hx s).mono (fun _ t => h s t) fun t => h s t

/-- Operations that follow one after the other, of which each keeps something else. -/
theorem seq {f : α → EStateM ε σ β} (hx : Keeps R x) (hf : ∀ a, Keeps S (f a))
    (h : ∀ s t, R s t → T s t) (hcomp : ∀ s t u, R s t → S t u → T s u) : Keeps T (x >>= f) := by
  intro s
  refine ((hx s).mono (fun _ _ h => h) fun t => h s t).bind fun a t hst => ?_
  exact (hf a t).mono (fun _ u => hcomp s t u hst) fun u => hcomp s t u hst

theorem get_bind {f : σ → EStateM ε σ β} (hf : ∀ s, Keeps R (f s)) :
    Keeps R (MonadState.get >>= f) := fun s => Ends.get_bind (hf s s)

theorem throw_bind (hR : Lasting R) (e : ε) (f : α → EStateM ε σ β) :
    Keeps R (MonadExcept.throw e >>= f) := fun s => Ends.throw_bind (hR.refl s)

theorem modify {f : σ → σ} (hf : ∀ s, R s (f s)) : Keeps R (modify f : EStateM ε σ PUnit) :=
  fun s => Ends.modify (hf s)

theorem ite {c : Prop} [Decidable c] {y : EStateM ε σ α} (hx : Keeps R x) (hy : Keeps R y) :
    Keeps R (if c then x else y) := by
  split
  · exact hx
  · exact hy

theorem discard (hx : Keeps R x) : Keeps R (discard x) := fun s =>
  (hx s).discard.mono (fun _ _ ⟨_, h⟩ => h) fun _ h => h

/-! ## Loops -/

theorem forM (hR : Lasting R) {f : α → EStateM ε σ PUnit} (hf : ∀ a, Keeps R (f a)) (l : List α) :
    Keeps R (l.forM f) := by
  intro s
  refine Ends.forM (I := R s) (fun a _ t hst => ?_) (hR.refl s)
  exact (hf a t).mono (fun _ _ h => hR.trans hst h) fun _ h => hR.trans hst h

theorem foldlM (hR : Lasting R) {f : β → α → EStateM ε σ β} (hf : ∀ b a, Keeps R (f b a)) (l : List α)
    (b : β) : Keeps R (l.foldlM f b) := by
  intro s
  refine Ends.foldlM (I := R s) (fun b a _ t hst => ?_) (hR.refl s)
  exact (hf b a t).mono (fun _ _ h => hR.trans hst h) fun _ h => hR.trans hst h

theorem mapM (hR : Lasting R) {f : α → EStateM ε σ β} (hf : ∀ a, Keeps R (f a)) (l : List α) :
    Keeps R (l.mapM f) := by
  induction l with
  | nil =>
    rw [List.mapM_nil]
    exact pure hR []
  | cons a l ih =>
    rw [List.mapM_cons]
    exact bind hR (hf a) fun b => bind hR ih fun bs => pure hR (b :: bs)

end Keeps

end DomHost
