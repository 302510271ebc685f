import Mathlib.Logic.Basic

/-!
# What a run yields

A run takes a state through calls one after the other, and each call yields something that depends on the
state it finds.

* `along`: what the calls of a run yield, one after the other;
* **`along_append`**: a run yields what its parts yield;
* `along_concat`: with one call more, it yields what this call yields as well.
-/

namespace DomHost

variable {σ ο α : Type}

/-- What the calls of a run yield, one after the other. -/
def along (step : σ → ο → σ) (f : σ → ο → List α) : σ → List ο → List α
  | _, [] => []
  | s, o :: os => f s o ++ along step f (step s o) os

variable {step : σ → ο → σ} {f : σ → ο → List α} {s : σ} {o : ο} {front back : List ο}

theorem along_append :
    along step f s (front ++ back) = along step f s front ++ along step f (front.foldl step s) back := by
  induction front generalizing s with
  | nil => rfl
  | cons o front ih => rw [List.cons_append, along, ih, along, List.append_assoc]; rfl

theorem along_concat : along step f s (front ++ [o]) = along step f s front ++ f (front.foldl step s) o := by
  rw [along_append, along, along, List.append_nil]

end DomHost
