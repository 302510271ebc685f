import DomHost.Proofs.Callback

/-!
# Closures that are released

What a table of closures holds is what it held before, less the closures that it put down as released.
This is so after each operation on a listener or a closure, and after any number of them.

* `CallbackTable.Apart`: a closure waits or is in use, not both;
* `CallbackTable.Sheds`: a table that has released some closures since another;
* **`CallbackTable.Sheds.attach`**, **`CallbackTable.Sheds.detach`**, `CallbackTable.Sheds.dispose`: what
  the operations release;
* `CallbackTable.Apart.register`: a registration releases nothing and adds one closure.
-/

namespace DomHost

namespace CallbackTable

variable {α : Type} {t t' t'' : CallbackTable α} {c d : CallbackId} {out more : List CallbackId}

/-- No closure waits and is in use at the same time. -/
def Apart (t : CallbackTable α) : Prop := ∀ c, (t.pending? c).isSome = true → t.live? c = none

/-- A table that has released some closures since another. Each of them was there, and is gone. -/
structure Sheds (t t' : CallbackTable α) (out : List CallbackId) : Prop where
  apart : t'.Apart
  released : t'.released = t.released ++ out
  nodup : out.Nodup
  subset : ∀ c ∈ out, t.contains c = true
  contains : ∀ c, t'.contains c = true ↔ t.contains c = true ∧ c ∉ out

theorem contains_iff : t.contains c = true ↔ (t.pending? c).isSome = true ∨ (t.live? c).isSome = true := by
  rw [CallbackTable.contains, Bool.or_eq_true]

theorem isSome_live?_setLive (h : CallbackHandle α) (d : CallbackId) :
    ((t.setLive h).live? d).isSome = (t.live? d).isSome := by
  rw [live?_setLive]
  split
  · rw [Option.isSome_map]
  · rfl

namespace Sheds

/-- A table with the same closures. -/
theorem same (ht : t'.Apart) (hr : t'.released = t.released)
    (hc : ∀ c, t'.contains c = true ↔ t.contains c = true) : t.Sheds t' [] :=
  ⟨ht, by rw [hr, List.append_nil], List.nodup_nil, by simp, fun c => by rw [hc]; simp⟩

theorem refl (ht : t.Apart) : t.Sheds t [] := same ht rfl fun _ => Iff.rfl

/-- A table with a closure less. -/
theorem drop (ht : t.Apart) (hc : t.contains c = true) (hr : t'.released = t.released ++ [c])
    (hp : ∀ d, t'.pending? d = if d = c then none else t.pending? d)
    (hl : ∀ d, t'.live? d = if d = c then none else t.live? d) : t.Sheds t' [c] where
  apart := by
    intro d hd
    rw [hp] at hd
    rw [hl]
    by_cases hdc : d = c
    · rw [if_pos hdc]
    · rw [if_neg hdc] at hd ⊢
      exact ht d hd
  released := hr
  nodup := List.nodup_singleton c
  subset := by simpa using hc
  contains := by
    intro d
    rw [contains_iff, contains_iff, hp, hl]
    by_cases hdc : d = c
    · simp [hdc]
    · simp [hdc]

theorem trans (h : t.Sheds t' out) (h' : t'.Sheds t'' more) : t.Sheds t'' (out ++ more) where
  apart := h'.apart
  released := by rw [h'.released, h.released, List.append_assoc]
  nodup := by
    refine List.nodup_append.mpr ⟨h.nodup, h'.nodup, ?_⟩
    rintro c hc _ hc' rfl
    exact ((h.contains c).mp (h'.subset c hc')).2 hc
  subset := by
    intro c hc
    rcases List.mem_append.mp hc with hc | hc
    · exact h.subset c hc
    · exact ((h.contains c).mp (h'.subset c hc)).1
  contains := by
    intro c
    rw [h'.contains, h.contains, List.mem_append, not_or, and_assoc]

/-- A table in which the handle of a closure is replaced. -/
theorem setLive (ht : t.Apart) (h : CallbackHandle α) : t.Sheds (t.setLive h) [] := by
  have hp : ∀ d, (t.setLive h).pending? d = t.pending? d := fun _ => rfl
  refine same (fun d hd => ?_) rfl fun d => ?_
  · rw [live?_setLive, ht d hd]
    split <;> rfl
  · rw [contains_iff, contains_iff, isSome_live?_setLive, hp]

theorem attach (ht : t.Apart) {k : CallbackHandle α} (h : t.attach c = .ok (k, t')) :
    t.Sheds t' [] := by
  unfold CallbackTable.attach at h
  split at h
  · split at h
    · exact absurd h (by simp)
    · obtain ⟨-, rfl⟩ := Prod.mk.inj (Except.ok.inj h)
      exact setLive ht _
  · split at h
    · rename_i hl closure hp
      obtain ⟨-, rfl⟩ := Prod.mk.inj (Except.ok.inj h)
      refine same (fun d hd => ?_) rfl fun d => ?_
      · rw [pending?_of_filter rfl] at hd
        rw [live?_of_cons rfl]
        by_cases hdc : d = c
        · simp [hdc] at hd
        · rw [if_neg hdc] at hd ⊢
          exact ht d hd
      · rw [contains_iff, contains_iff, pending?_of_filter rfl, live?_of_cons rfl]
        by_cases hdc : d = c
        · simp [hdc, hp]
        · simp [hdc]
    · exact absurd h (by simp)

theorem detach (ht : t.Apart) {k : CallbackHandle α} (h : t.detach c = .ok (k, t')) :
    ∃ out, t.Sheds t' out := by
  unfold CallbackTable.detach at h
  split at h
  · exact absurd h (by simp)
  · rename_i k₀ hl
    simp only at h
    split at h
    · obtain ⟨-, rfl⟩ := Prod.mk.inj (Except.ok.inj h)
      have hn : t.pending? c = none := by
        by_contra hp
        rw [ht c (Option.isSome_iff_ne_none.mpr hp)] at hl
        exact absurd hl (by simp)
      refine ⟨[c], drop ht (contains_iff.mpr (Or.inr (by rw [hl]; rfl))) rfl (fun d => ?_)
        (live?_of_filter rfl)⟩
      split
      · rename_i hdc
        rw [hdc]
        exact hn
      · rfl
    · obtain ⟨-, rfl⟩ := Prod.mk.inj (Except.ok.inj h)
      exact ⟨[], setLive ht _⟩

theorem dispose (ht : t.Apart) {b : Bool} (h : t.dispose c = .ok (b, t')) :
    ∃ out, t.Sheds t' out := by
  unfold CallbackTable.dispose at h
  split at h
  · rename_i hp
    obtain ⟨-, rfl⟩ := Prod.mk.inj (Except.ok.inj h)
    refine ⟨[c], drop ht (contains_iff.mpr (Or.inl hp)) rfl (pending?_of_filter rfl) fun d => ?_⟩
    split
    · rename_i hdc
      rw [hdc]
      exact ht c hp
    · rfl
  · split at h
    · obtain ⟨-, rfl⟩ := Prod.mk.inj (Except.ok.inj h)
      exact ⟨[], setLive ht _⟩
    · exact absurd h (by simp)

end Sheds

theorem Apart.register (ht : t.Apart) {closure : α} (h : t.register c closure = .ok t') :
    t'.Apart ∧ t'.released = t.released ∧ ¬ t.contains c = true ∧
      ∀ d, t'.contains d = true ↔ t.contains d = true ∨ d = c := by
  unfold CallbackTable.register at h
  split at h
  · exact absurd h (by simp)
  · rename_i hn
    obtain rfl := Except.ok.inj h
    have hl : ∀ d, CallbackTable.live? { t with pending := (c, closure) :: t.pending } d = t.live? d :=
      fun _ => rfl
    refine ⟨fun d hd => ?_, rfl, hn, fun d => ?_⟩
    · rw [pending?_of_cons rfl] at hd
      rw [contains_iff, not_or] at hn
      by_cases hdc : d = c
      · rw [hl, hdc]
        simpa using hn.2
      · rw [if_neg hdc] at hd
        exact ht d hd
    · rw [contains_iff, contains_iff, pending?_of_cons rfl, hl]
      by_cases hdc : d = c
      · simp [hdc]
      · simp [hdc]

end CallbackTable

end DomHost
