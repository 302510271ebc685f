import DomHost.Proofs.Along
import DomHost.Proofs.Timer

/-!
# Timers come due in order

A run schedules timers, clears them and moves the clock, which may be asked to go back. Whatever the run
does, a move of the clock reports the timers that are due, and over the whole run each report comes behind
the ones before it.

* `TimerQueue.handedOut`, `reported`, `firings`: what the calls of a run yield;
* `TimerQueue.FitsAll`, `Bounded`: the times do not end, and the tokens do not wrap around;
* `TimerQueue.Settled.run`: a run keeps the invariant;
* `TimerQueue.Retired`: a token that is not reported any more;
* **`TimerQueue.punctual_of_fits`**: what a run owes to its timers.
-/

namespace DomHost.TimerQueue

variable {q : TimerQueue} {t u : Timer} {token : TimerToken} {log : List Timer} {now : Instant}

/-- The timers after some calls. -/
def after (q : TimerQueue) (os : List Operation) : TimerQueue := os.foldl apply q

/-- The tokens some calls hand out. -/
def handedOut : TimerQueue → List Operation → List TimerToken := along apply issued

/-- The tokens some calls report. -/
def reported : TimerQueue → List Operation → List TimerToken := along apply result

/-- The timers behind the tokens some calls report, as they were when they came due. -/
def firings : TimerQueue → List Operation → List Timer := along apply fired

/-- No call on the way reaches the end of time. -/
def FitsAll : TimerQueue → List Operation → Prop
  | _, [] => True
  | q, o :: os => q.Fits o ∧ FitsAll (q.apply o) os

instance decidableFitsAll : (q : TimerQueue) → (os : List Operation) → Decidable (q.FitsAll os)
  | _, [] => inferInstanceAs (Decidable True)
  | q, o :: os =>
    have : Decidable ((q.apply o).FitsAll os) := decidableFitsAll (q.apply o) os
    inferInstanceAs (Decidable (_ ∧ _))

/-- The clock a call asks for. -/
def Operation.clock? : Operation → Option Instant
  | advance now => some now
  | setTimeout _ | setInterval _ | clear _ => none

/-- The largest clock value some calls ask for. -/
def latest (os : List Operation) : Instant := (os.filterMap Operation.clock?).foldl max 0

variable {os front back : List Operation} {o : Operation}

theorem after_append : q.after (front ++ back) = (q.after front).after back := List.foldl_append

theorem after_concat : q.after (front ++ [o]) = (q.after front).apply o := by
  rw [after_append]
  rfl

theorem fitsAll_append : q.FitsAll (front ++ back) ↔ q.FitsAll front ∧ (q.after front).FitsAll back := by
  induction front generalizing q with
  | nil => simp [FitsAll, after]
  | cons o front ih => rw [List.cons_append, FitsAll, ih, FitsAll, and_assoc]; rfl

theorem now_apply (q : TimerQueue) (o : Operation) : (q.apply o).now = o.clock?.elim q.now (max q.now) := by
  cases o <;> rfl

theorem now_after : (q.after os).now = (os.filterMap Operation.clock?).foldl max q.now := by
  induction os generalizing q with
  | nil => rfl
  | cons o os ih =>
    have hn := now_apply q o
    change ((q.apply o).after os).now = _
    rw [ih, hn, List.filterMap_cons]
    cases o.clock? <;> rfl

/-- The conditions on a run: its tokens do not wrap around, and its times do not end. -/
structure Bounded (q : TimerQueue) (os : List Operation) : Prop where
  tokens : q.lastToken.toNat + (q.handedOut os).length < 2 ^ 32
  times : q.FitsAll os

theorem handedOut_cons : q.handedOut (o :: os) = q.issued o ++ (q.apply o).handedOut os := rfl

theorem Bounded.head (hb : q.Bounded (o :: os)) : q.lastToken.toNat + (q.issued o).length < 2 ^ 32 := by
  have hn := hb.tokens
  rw [handedOut_cons, List.length_append] at hn
  omega

theorem Bounded.tail (hb : q.Bounded (o :: os)) : (q.apply o).Bounded os where
  tokens := by
    have hn := hb.tokens
    rw [handedOut_cons, List.length_append] at hn
    rw [(q.lastToken_apply o hb.head).1]
    omega
  times := hb.times.2

theorem Bounded.left (hb : q.Bounded (front ++ back)) : q.Bounded front where
  tokens := by
    have hn := hb.tokens
    rw [handedOut, along_append, List.length_append] at hn
    exact Nat.lt_of_le_of_lt (by rw [handedOut]; omega) hn
  times := (fitsAll_append.mp hb.times).1

theorem Bounded.right (hb : q.Bounded (front ++ back)) : (q.after front).Bounded back := by
  induction front generalizing q with
  | nil => exact hb
  | cons o front ih => exact ih hb.tail

/-- A run hands out the tokens behind the last one. -/
theorem Bounded.lastToken (hb : q.Bounded os) : q.lastToken ≤ (q.after os).lastToken ∧
    ∀ token ∈ q.handedOut os, q.lastToken < token.number ∧ token.number ≤ (q.after os).lastToken := by
  induction os generalizing q with
  | nil => exact ⟨UInt32.le_refl _, by simp [handedOut, along]⟩
  | cons o os ih =>
    obtain ⟨hlast, hissued⟩ := q.lastToken_apply o hb.head
    obtain ⟨hle, hout⟩ := ih hb.tail
    have hone : q.lastToken ≤ (q.apply o).lastToken := by
      rw [UInt32.le_iff_toNat_le]
      omega
    refine ⟨UInt32.le_trans hone hle, fun token ht => ?_⟩
    rcases List.mem_append.mp ht with ht | ht
    · exact ⟨(hissued token ht).1, UInt32.le_trans (hissued token ht).2 hle⟩
    · exact ⟨UInt32.lt_of_le_of_lt hone (hout token ht).1, (hout token ht).2⟩

/-- **A run keeps the invariant.** -/
theorem Settled.run (h : q.Settled log) (hb : q.Bounded os) :
    (q.after os).Settled (log ++ q.firings os) := by
  induction os generalizing q log with
  | nil => rwa [firings, along, List.append_nil]
  | cons o os ih =>
    have hs := ih (h.apply hb.times.1 hb.head) hb.tail
    rwa [List.append_assoc] at hs

/-- A token that was handed out and is not pending. -/
def Retired (q : TimerQueue) (token : TimerToken) : Prop :=
  token.number ≤ q.lastToken ∧ token ∉ q.timers.map (·.token)

theorem token_of_mem_apply (hu : u ∈ (q.apply o).timers) :
    u.token ∈ q.timers.map (·.token) ∨ u.token ∈ q.issued o := by
  cases o with
  | setTimeout delay | setInterval period =>
    rcases List.mem_cons.mp hu with rfl | hu
    · exact .inr (List.mem_singleton_self _)
    · exact .inl (List.mem_map_of_mem (List.mem_of_mem_filter hu))
  | clear token => exact .inl (List.mem_map_of_mem (List.mem_of_mem_filter hu))
  | advance now =>
    obtain ⟨t, ht, hr⟩ := List.mem_filterMap.mp hu
    exact .inl (token_of_rearm hr ▸ List.mem_map_of_mem ht)

theorem Retired.apply (hr : q.Retired token)
    (hn : q.lastToken.toNat + (q.issued o).length < 2 ^ 32) : (q.apply o).Retired token := by
  obtain ⟨hlast, hissued⟩ := q.lastToken_apply o hn
  refine ⟨UInt32.le_trans hr.1 (UInt32.le_iff_toNat_le.mpr (by omega)), fun hm => ?_⟩
  obtain ⟨u, hu, rfl⟩ := List.mem_map.mp hm
  rcases token_of_mem_apply hu with ht | ht
  · exact hr.2 ht
  · exact UInt32.lt_irrefl _ (UInt32.lt_of_lt_of_le (hissued _ ht).1 hr.1)

/-- What was handed out and is not pending is not reported. -/
theorem Retired.not_mem_reported (hr : q.Retired token) (hb : q.Bounded os) :
    token ∉ q.reported os := by
  induction os generalizing q with
  | nil => exact List.not_mem_nil
  | cons o os ih =>
    intro hm
    rcases List.mem_append.mp hm with hm | hm
    · cases o with
      | advance now =>
        obtain ⟨t, ht, he⟩ := List.mem_map.mp hm
        exact hr.2 (List.mem_map.mpr ⟨t, (mem_due.mp ht).1, he⟩)
      | setTimeout _ | setInterval _ | clear _ => exact absurd hm List.not_mem_nil
    · exact ih (hr.apply hb.head) hb.tail hm

theorem map_firings (h : q.Settled log) (hb : q.Bounded os) :
    (q.firings os).map (·.token) = q.reported os := by
  induction os generalizing q log with
  | nil => rfl
  | cons o os ih =>
    change (q.fired o ++ (q.apply o).firings os).map (·.token) = q.result o ++ (q.apply o).reported os
    rw [List.map_append, ih (h.apply hb.times.1 hb.head) hb.tail]
    cases o with
    | advance now => rw [h.fired_advance]; rfl
    | setTimeout _ | setInterval _ | clear _ => rfl

/-- The timer a call asks for: how long it waits, and its period. -/
def Operation.request? : Operation → Option (Instant × Option Instant)
  | setTimeout delay => some (delay, none)
  | setInterval period =>
    let period := max period (Instant.ofMillis 1)
    some (period, some period)
  | clear _ | advance _ => none

/-- What a run on a new queue owes to its timers. -/
structure Punctual (os : List Operation) : Prop where
  /-- Over the whole run the timers come due in the order of their deadlines and then of their tokens. -/
  ordered : (firings {} os).Pairwise Timer.Before
  paired : (firings {} os).map (·.token) = reported {} os
  /-- A move of the clock reports what is due by the largest clock value so far, and each timer once. -/
  due : ∀ {front now back}, os = front ++ .advance now :: back →
    let q := after {} front
    (q.advance now).1.Nodup ∧ ∀ token, token ∈ (q.advance now).1 ↔
      ∃ t ∈ q.timers, t.token = token ∧ t.deadline ≤ latest (front ++ [.advance now])
  /-- A timeout that was reported is gone and not reported again. -/
  spent : ∀ {front now back t}, os = front ++ .advance now :: back →
    let q := after {} front
    t ∈ q.timers → t.token ∈ (q.advance now).1 → t.period = none →
      (∀ u ∈ (q.advance now).2.timers, u.token ≠ t.token) ∧ t.token ∉ (q.advance now).2.reported back
  /-- An interval that was reported waits for a time behind the clock. -/
  rearmed : ∀ {front now back t period}, os = front ++ .advance now :: back →
    let q := after {} front
    t ∈ q.timers → t.token ∈ (q.advance now).1 → t.period = some period →
      ∃ deadline > latest (front ++ [.advance now]), { t with deadline } ∈ (q.advance now).2.timers
  /-- A timer that is cleared, or has come due before, is not reported any more. -/
  cleared : ∀ {front token back}, os = front ++ .clear token :: back →
    let q := after {} front
    token ∈ handedOut {} front → token ∉ (q.clear token).2.reported back
  /-- A new timer has a token of its own, and waits as long as it was asked to. -/
  scheduled : ∀ {front o back span period}, os = front ++ o :: back → o.request? = some (span, period) →
    ∃ token, (after {} front).issued o = [token] ∧ token ∉ handedOut {} front ∧
      ⟨token, latest front + span, period⟩ ∈ (after {} (front ++ [o])).timers
  /-- A timer stays as it is until it is reported or cleared. -/
  waiting : ∀ {front o back t}, os = front ++ o :: back → t ∈ (after {} front).timers →
    t.token ∉ (after {} front).result o → o ≠ .clear t.token → t ∈ (after {} (front ++ [o])).timers

/-! ## One call within a run -/

theorem retired_clear (hk : token.number ≤ q.lastToken) : (q.clear token).2.Retired token := by
  refine ⟨hk, fun hm => ?_⟩
  obtain ⟨u, hu, rfl⟩ := List.mem_map.mp hm
  simp [clear] at hu

section Within

variable (h : q.Settled log)
include h

theorem Settled.mem_due_of_reported (ht : t ∈ q.timers) (hr : t.token ∈ (q.advance now).1) :
    t ∈ q.due now := by
  obtain ⟨u, hu, he⟩ := List.mem_map.mp hr
  rwa [← List.inj_on_of_nodup_map h.nodup (mem_due.mp hu).1 ht he]

theorem Settled.retired_of_spent (hfits : q.Fits (.advance now)) (ht : t ∈ q.timers)
    (hr : t.token ∈ (q.advance now).1) (hperiod : t.period = none) :
    (q.advance now).2.Retired t.token := by
  refine ⟨h.known t ht, fun hm => ?_⟩
  obtain ⟨u, hu, he⟩ := List.mem_map.mp hm
  have hdue := (mem_due.mp (h.mem_due_of_reported ht hr)).2
  -- the timer with this token is `t`, which was due and has no period
  rcases mem_advance.mp hu with ⟨hu, hlt⟩ | ⟨v, hv, hrearm⟩
  · obtain rfl := List.inj_on_of_nodup_map h.nodup hu ht he
    exact Nat.not_lt.mpr hdue hlt
  · obtain ⟨htoken, -, -⟩ := h.of_rearm hfits hv hrearm
    obtain rfl := List.inj_on_of_nodup_map h.nodup (mem_due.mp hv).1 ht (htoken.symm.trans he)
    rw [TimerQueue.rearm, hperiod] at hrearm
    cases hrearm

theorem Settled.mem_apply (hn : q.lastToken.toNat + (q.issued o).length < 2 ^ 32) (hfits : q.Fits o)
    (ht : t ∈ q.timers) (hr : t.token ∉ q.result o) (hc : o ≠ .clear t.token) : t ∈ (q.apply o).timers := by
  cases o with
  | setTimeout delay =>
    exact h.timers_schedule hn delay none hfits ▸ List.mem_cons_of_mem _ ht
  | setInterval period =>
    exact h.timers_setInterval hn hfits ▸ List.mem_cons_of_mem _ ht
  | clear token =>
    refine List.mem_filter.mpr ⟨ht, ?_⟩
    rw [bne_iff_ne]
    rintro rfl
    exact hc rfl
  | advance now =>
    refine mem_advance.mpr (.inl ⟨ht, Nat.not_le.mp fun hd => hr ?_⟩)
    exact List.mem_map_of_mem (mem_due.mpr ⟨ht, hd⟩)

theorem Settled.mem_request {span : Instant} {period : Option Instant}
    (hn : q.lastToken.toNat + (q.issued o).length < 2 ^ 32) (hfits : q.Fits o)
    (hreq : o.request? = some (span, period)) :
    ∃ token, q.issued o = [token] ∧ ⟨token, q.now + span, period⟩ ∈ (q.apply o).timers := by
  cases o with
  | setTimeout delay =>
    cases hreq
    exact ⟨_, rfl, h.timers_schedule hn span none hfits ▸ List.mem_cons_self⟩
  | setInterval delay =>
    cases hreq
    exact ⟨_, rfl, h.timers_setInterval hn hfits ▸ List.mem_cons_self⟩
  | clear token | advance now => cases hreq

end Within

/-- **Timers come due in order, when they are to and as often as they are to.** -/
theorem punctual_of_fits (hcount : (handedOut {} os).length < 2 ^ 32) (hfits : FitsAll {} os) :
    Punctual os := by
  have hb : Bounded {} os := ⟨by simpa using hcount, hfits⟩
  have hsettled := settled_new.run hb
  have hclock : ∀ front, (after {} front).now = latest front := fun front => now_after
  -- what holds of the state a call finds, and of the calls behind it
  have hat : ∀ {front o back}, os = front ++ o :: back →
      (after {} front).Settled (firings {} front) ∧ (after {} front).Bounded (o :: back) ∧
        Bounded {} front := by
    rintro front o back rfl
    exact ⟨settled_new.run hb.left, hb.right, hb.left⟩
  have hmove : ∀ front now, latest (front ++ [.advance now]) = max (after {} front).now now := by
    intro front now
    rw [← hclock, after_concat]
    rfl
  refine ⟨hsettled.ordered, map_firings settled_new hb, ?_, ?_, ?_, ?_, ?_, ?_⟩
  · intro front now back he
    refine ⟨nodup_due (hat he).1.nodup, fun token => ?_⟩
    rw [hmove, advance_fst, List.mem_map]
    exact ⟨fun ⟨t, ht, htoken⟩ => ⟨t, (mem_due.mp ht).1, htoken, (mem_due.mp ht).2⟩,
      fun ⟨t, ht, htoken, hd⟩ => ⟨t, mem_due.mpr ⟨ht, hd⟩, htoken⟩⟩
  · intro front now back t he q ht hr hperiod
    obtain ⟨h, hb, -⟩ := hat he
    have hretired := h.retired_of_spent hb.times.1 ht hr hperiod
    exact ⟨fun u hu hut => hretired.2 (hut ▸ List.mem_map_of_mem hu),
      hretired.not_mem_reported hb.tail⟩
  · intro front now back t period he q ht hr hperiod
    obtain ⟨h, hb, -⟩ := hat he
    have hdue := h.mem_due_of_reported ht hr
    obtain ⟨deadline, hlt, hrearm⟩ := h.rearm hb.times.1 hdue hperiod
    exact ⟨deadline, hmove front now ▸ hlt, mem_advance.mpr (.inr ⟨t, hdue, hrearm⟩)⟩
  · intro front token back he q hout
    obtain ⟨-, hb, hfront⟩ := hat he
    exact (retired_clear (hfront.lastToken.2 token hout).2).not_mem_reported hb.tail
  · intro front o back span period he hreq
    obtain ⟨h, hb, hfront⟩ := hat he
    obtain ⟨token, hissued, hm⟩ := h.mem_request hb.head hb.times.1 hreq
    refine ⟨token, hissued, fun hout => ?_, by rwa [hclock, ← after_concat] at hm⟩
    have hlt := ((after {} front).lastToken_apply o hb.head).2 token (hissued ▸ List.mem_singleton_self _)
    exact UInt32.lt_irrefl _ (UInt32.lt_of_lt_of_le hlt.1 (hfront.lastToken.2 token hout).2)
  · intro front o back t he ht hr hc
    obtain ⟨h, hb, -⟩ := hat he
    rw [after_concat]
    exact h.mem_apply hb.head hb.times.1 ht hr hc

/-- An interval and a timeout come due together, the interval waits on, the clock is asked to go back,
and the interval is cleared. -/
theorem punctual_clear_after_going_back :
    let ms := Instant.ofMillis
    let os : List Operation := [.setInterval (ms 10), .setTimeout (ms 10), .advance (ms 10),
      .setTimeout 0, .advance (ms 5), .advance (ms 35), .clear ⟨1⟩, .advance (ms 99)]
    ((handedOut {} os).length < 2 ^ 32 ∧ FitsAll {} os) ∧ Punctual os :=
  ⟨by decide, punctual_of_fits (by decide) (by decide)⟩

end DomHost.TimerQueue
