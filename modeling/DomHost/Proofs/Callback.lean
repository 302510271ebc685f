import DomHost.Callback
import DomHost.Event.Handler
import DomHost.Proofs.Listener
import Mathlib.Data.Nat.Bitwise
import Mathlib.Logic.Function.Basic

/-!
# Closures and the listeners that use them

A closure is counted right when its count is the number of the listeners that call it, it is in use as
long as there are any, and it is there for them.

* `Registry.uses`: the number of installed listeners that call a closure;
* `CallbackTable.Tallies`: the closures in use are counted right;
* **`CallbackTable.Tallies.attach`**, **`CallbackTable.Tallies.detach`**: a listener more or fewer;
* `CallbackTable.Tallies.register`, `CallbackTable.Tallies.dispose`: closures that come and go;
* `CallbackTable.Tallies.enter`: a closure that a listener uses can be run.
-/

namespace DomHost

/-- The number of installed listeners that call a closure. -/
def Registry.uses (g : Registry) (c : CallbackId) : Nat :=
  g.installed.countP (·.handler == c.handler)

theorem CallbackId.handler_injective : Function.Injective CallbackId.handler := by
  intro c d h
  have hn : c.number.toUInt64 = d.number.toUInt64 := congrArg HandlerId.number h
  have hn' := congrArg UInt64.toUInt32 hn
  simp only [UInt32.toUInt32_toUInt64] at hn'
  exact congrArg CallbackId.mk hn'

theorem Handler.ofId_handler (c : CallbackId) : Handler.ofId c.handler = .callback c := by
  have hlt : c.number.toNat < 2 ^ 63 := Nat.lt_of_lt_of_le c.number.toNat_lt (by decide)
  have hbit : c.number.toUInt64 &&& delegateHandler.number = 0 := by
    rw [← UInt64.toNat_inj, UInt64.toNat_and, UInt32.toNat_toUInt64]
    change c.number.toNat &&& 2 ^ 63 = 0
    rw [Nat.and_two_pow, Nat.testBit_lt_two_pow hlt]
    rfl
  rw [ofId, CallbackId.handler, if_pos hbit, UInt32.toUInt32_toUInt64]

theorem Handler.ofId_delegateHandler : Handler.ofId delegateHandler = .delegate := by
  decide

namespace CallbackTable

variable {α : Type} {t : CallbackTable α} {n : CallbackId → Nat} {c d : CallbackId}

/-- The closures in use are counted as a function says, and none of them is running. -/
structure Tallies (t : CallbackTable α) (n : CallbackId → Nat) : Prop where
  live : ∀ c h, t.live? c = some h →
    h.count = n c ∧ 0 < n c ∧ h.closure.isSome = true ∧ h.running = false
  unused : ∀ c, t.live? c = none → n c = 0
  apart : ∀ c, (t.pending? c).isSome = true → t.live? c = none

/-! ## Looking up -/

theorem id_of_live? {h : CallbackHandle α} (hl : t.live? c = some h) : h.id = c := by
  simpa using List.find?_some hl

theorem find?_map_replace (l : List (CallbackHandle α)) (h : CallbackHandle α) :
    (l.map fun old => if old.id = h.id then h else old).find? (·.id == c) =
      if c = h.id then (l.find? (·.id == c)).map fun _ => h else l.find? (·.id == c) := by
  induction l with
  | nil => simp
  | cons a l ih =>
    rw [List.map_cons, List.find?_cons, List.find?_cons, ih]
    by_cases ha : a.id = h.id
    · by_cases hc : c = h.id
      · simp [ha, hc]
      · have h1 : (h.id == c) = false := by simpa using fun he : h.id = c => hc he.symm
        simp [ha, hc, h1]
    · by_cases hc : c = h.id
      · have h1 : (a.id == h.id) = false := by simpa using ha
        simp [ha, hc, h1]
      · simp [ha, hc]

theorem live?_setLive (t : CallbackTable α) (h : CallbackHandle α) (c : CallbackId) :
    (t.setLive h).live? c = if c = h.id then (t.live? c).map fun _ => h else t.live? c :=
  find?_map_replace t.live h

theorem find?_filter_ne {β : Type} (key : β → CallbackId) (l : List β) (c d : CallbackId) :
    (l.filter (key · != c)).find? (key · == d) =
      if d = c then none else l.find? (key · == d) := by
  rw [List.find?_filter]
  by_cases hd : d = c
  · rw [if_pos hd, hd, List.find?_eq_none]
    simp
  · rw [if_neg hd]
    congr 1
    funext b
    by_cases hb : key b = d
    · simp [hb, hd]
    · simp [hb]

theorem find?_cons_key {β : Type} (key : β → CallbackId) (b : β) (l : List β) (d : CallbackId) :
    (b :: l).find? (key · == d) = if d = key b then some b else l.find? (key · == d) := by
  rw [List.find?_cons]
  by_cases hd : d = key b
  · simp [hd]
  · have hb : (key b == d) = false := by simpa using fun he : key b = d => hd he.symm
    simp [hb, hd]

section Edited

variable {t' : CallbackTable α}

theorem live?_of_filter (h : t'.live = t.live.filter (·.id != c)) (d : CallbackId) :
    t'.live? d = if d = c then none else t.live? d := by
  rw [live?, h]
  exact find?_filter_ne (·.id) t.live c d

theorem live?_of_cons {k : CallbackHandle α} (h : t'.live = k :: t.live) (d : CallbackId) :
    t'.live? d = if d = k.id then some k else t.live? d := by
  rw [live?, h]
  exact find?_cons_key (·.id) k t.live d

theorem pending?_of_filter (h : t'.pending = t.pending.filter (·.1 != c)) (d : CallbackId) :
    t'.pending? d = if d = c then none else t.pending? d := by
  have hf := find?_filter_ne (fun p : CallbackId × α => p.1) t.pending c d
  rw [pending?, h, hf]
  split <;> rfl

theorem pending?_of_cons {closure : α} (h : t'.pending = (c, closure) :: t.pending)
    (d : CallbackId) : t'.pending? d = if d = c then some closure else t.pending? d := by
  have hf := find?_cons_key (fun p : CallbackId × α => p.1) (c, closure) t.pending d
  rw [pending?, h, hf]
  split <;> rfl

end Edited

namespace Tallies

/-- Replacing the handle of a closure in use, with the count that goes with it. -/
theorem setLive (ht : t.Tallies n) {h h' : CallbackHandle α} (hl : t.live? c = some h)
    (hid : h'.id = h.id) (hpos : 0 < h'.count) (hc : h'.closure = h.closure)
    (hr : h'.running = h.running) : (t.setLive h').Tallies (Function.update n c h'.count) := by
  have hic := id_of_live? hl
  refine ⟨fun d k hk => ?_, fun d hd => ?_, fun d hd => ?_⟩
  · rw [live?_setLive, hid, hic] at hk
    by_cases hdc : d = c
    · rw [if_pos hdc, hdc, hl] at hk
      obtain rfl := Option.some.inj hk
      obtain ⟨-, -, h3, h4⟩ := ht.live c h hl
      rw [hdc, Function.update_self, hc, hr]
      exact ⟨rfl, hpos, h3, h4⟩
    · rw [if_neg hdc] at hk
      rw [Function.update_of_ne hdc]
      exact ht.live d k hk
  · rw [live?_setLive, hid, hic] at hd
    by_cases hdc : d = c
    · rw [if_pos hdc, hdc, hl] at hd
      exact absurd hd (by simp)
    · rw [if_neg hdc] at hd
      rw [Function.update_of_ne hdc]
      exact ht.unused d hd
  · have hn := ht.apart d hd
    have hdc : d ≠ c := by
      rintro rfl
      rw [hl] at hn
      exact absurd hn (by simp)
    rw [live?_setLive, hid, hic, if_neg hdc]
    exact hn

/-- A closure that waits is in use with its first listener. -/
theorem start (ht : t.Tallies n) (closure : α) {t' : CallbackTable α}
    (hp : t'.pending = t.pending.filter (·.1 != c))
    (hl : t'.live = { id := c, count := 1, closure := some closure } :: t.live) :
    t'.Tallies (Function.update n c 1) := by
  refine ⟨fun d k hk => ?_, fun d hd => ?_, fun d hd => ?_⟩
  · rw [live?_of_cons hl] at hk
    by_cases hdc : d = c
    · rw [if_pos hdc] at hk
      obtain rfl := Option.some.inj hk
      rw [hdc, Function.update_self]
      exact ⟨rfl, Nat.one_pos, rfl, rfl⟩
    · rw [if_neg hdc] at hk
      rw [Function.update_of_ne hdc]
      exact ht.live d k hk
  · rw [live?_of_cons hl] at hd
    by_cases hdc : d = c
    · rw [if_pos hdc] at hd
      exact absurd hd (by simp)
    · rw [if_neg hdc] at hd
      rw [Function.update_of_ne hdc]
      exact ht.unused d hd
  · rw [pending?_of_filter hp] at hd
    by_cases hdc : d = c
    · simp [hdc] at hd
    · rw [if_neg hdc] at hd
      rw [live?_of_cons hl, if_neg hdc]
      exact ht.apart d hd

/-- A closure is out of use with its last listener. -/
theorem finish (ht : t.Tallies n) {t' : CallbackTable α} (hp : t'.pending = t.pending)
    (hl : t'.live = t.live.filter (·.id != c)) : t'.Tallies (Function.update n c 0) := by
  refine ⟨fun d k hk => ?_, fun d hd => ?_, fun d hd => ?_⟩
  · rw [live?_of_filter hl] at hk
    by_cases hdc : d = c
    · simp [hdc] at hk
    · rw [if_neg hdc] at hk
      rw [Function.update_of_ne hdc]
      exact ht.live d k hk
  · rw [live?_of_filter hl] at hd
    by_cases hdc : d = c
    · rw [hdc, Function.update_self]
    · rw [if_neg hdc] at hd
      rw [Function.update_of_ne hdc]
      exact ht.unused d hd
  · rw [live?_of_filter hl]
    rw [pending?, hp] at hd
    by_cases hdc : d = c
    · rw [if_pos hdc]
    · rw [if_neg hdc]
      exact ht.apart d hd

/-- **A closure that may have a new listener gets one.** -/
theorem attach (ht : t.Tallies n) (hc : t.checkAttachable c = .ok ()) :
    ∃ h t', t.attach c = .ok (h, t') ∧ t'.Tallies (Function.update n c (n c + 1)) := by
  unfold checkAttachable at hc
  unfold CallbackTable.attach
  cases hl : t.live? c with
  | some h =>
    simp only [hl] at hc ⊢
    cases hd : h.doomed with
    | true => simp [hd] at hc
    | false =>
      refine ⟨_, _, rfl, ?_⟩
      rw [← (ht.live c h hl).1]
      exact ht.setLive hl rfl (Nat.succ_pos _) rfl rfl
  | none =>
    simp only [hl] at hc ⊢
    cases hp : t.pending? c with
    | none => simp [hp] at hc
    | some closure =>
      refine ⟨_, _, rfl, ?_⟩
      rw [ht.unused c hl]
      exact ht.start closure rfl rfl

/-- **A closure with a listener loses one.** -/
theorem detach (ht : t.Tallies n) (hc : 0 < n c) :
    ∃ h t', t.detach c = .ok (h, t') ∧ t'.Tallies (Function.update n c (n c - 1)) := by
  unfold CallbackTable.detach
  cases hl : t.live? c with
  | none => exact absurd (ht.unused c hl) (Nat.pos_iff_ne_zero.mp hc)
  | some h =>
    have hcount := (ht.live c h hl).1
    simp only []
    split
    · rename_i hz
      refine ⟨_, _, rfl, ?_⟩
      have hn : n c - 1 = 0 := by rw [← hcount]; exact hz
      rw [hn]
      exact ht.finish rfl rfl
    · rename_i hz
      refine ⟨_, _, rfl, ?_⟩
      rw [← hcount]
      exact ht.setLive hl rfl (Nat.pos_iff_ne_zero.mpr hz) (if_neg hz) rfl

theorem register (ht : t.Tallies n) {closure : α} {t' : CallbackTable α}
    (hr : t.register c closure = .ok t') : t'.Tallies n := by
  unfold CallbackTable.register at hr
  split at hr
  · exact absurd hr (by simp)
  · rename_i hn
    obtain rfl := Except.ok.inj hr
    refine ⟨ht.live, ht.unused, fun d hd => ?_⟩
    by_cases hdc : d = c
    · subst hdc
      simp only [contains, Bool.or_eq_true, not_or, Bool.not_eq_true, Option.isSome_eq_false_iff,
        Option.isNone_iff_eq_none] at hn
      exact hn.2
    · rw [pending?_of_cons rfl, if_neg hdc] at hd
      exact ht.apart d hd

theorem dispose (ht : t.Tallies n) {b : Bool} {t' : CallbackTable α}
    (hd : t.dispose c = .ok (b, t')) : t'.Tallies n := by
  unfold CallbackTable.dispose at hd
  split at hd
  · obtain ⟨-, rfl⟩ := Prod.mk.inj (Except.ok.inj hd)
    refine ⟨ht.live, ht.unused, fun d hd => ht.apart d ?_⟩
    rw [pending?_of_filter rfl] at hd
    split at hd
    · exact absurd hd (by simp)
    · exact hd
  · split at hd
    · rename_i h hl
      obtain ⟨-, rfl⟩ := Prod.mk.inj (Except.ok.inj hd)
      obtain ⟨hcount, hpos, -, -⟩ := ht.live c h hl
      rw [← hcount] at hpos
      have hset : (t.setLive { h with doomed := true }).Tallies (Function.update n c h.count) :=
        ht.setLive hl rfl hpos rfl rfl
      have hn : Function.update n c h.count = n := by rw [hcount, Function.update_eq_self]
      exact hn ▸ hset
    · exact absurd hd (by simp)

theorem takeReleased (ht : t.Tallies n) : t.takeReleased.2.Tallies n := ⟨ht.live, ht.unused, ht.apart⟩

/-- **A closure with a listener can be run.** -/
theorem enter (ht : t.Tallies n) (hc : 0 < n c) :
    ∃ h f t', t.live? c = some h ∧ h.closure = some f ∧ t.enter c = .ok (f, t') := by
  cases hl : t.live? c with
  | none => exact absurd (ht.unused c hl) (Nat.pos_iff_ne_zero.mp hc)
  | some h =>
    obtain ⟨-, -, hclosure, hrunning⟩ := ht.live c h hl
    obtain ⟨f, hf⟩ := Option.isSome_iff_exists.mp hclosure
    refine ⟨h, f, t.setLive { h with running := true }, rfl, hf, ?_⟩
    simp [CallbackTable.enter, hl, CallbackHandle.enter, hrunning, hf, bind, Except.bind, pure, Except.pure]

theorem count_eq (ht : t.Tallies n) (c : CallbackId) : t.count c = n c := by
  rw [count]
  cases hl : t.live? c with
  | none => exact (ht.unused c hl).symm
  | some h => exact (ht.live c h hl).1

theorem isSome_live?_iff (ht : t.Tallies n) : (t.live? c).isSome = true ↔ 0 < n c := by
  cases hl : t.live? c with
  | none => simp [ht.unused c hl]
  | some h => simp [(ht.live c h hl).2.1]

end Tallies

end CallbackTable

end DomHost
