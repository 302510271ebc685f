import DomHost.Timer
import Mathlib.Algebra.Group.Nat.Defs
import Mathlib.Data.List.Nodup
import Mathlib.Data.Nat.Basic

/-!
# Timers come before one another

The timers that were reported so far come before those that are pending: by the deadline, and by the token
where the deadlines are the same. Each call keeps this, as new timers have new tokens and are not due before
the clock, and what the clock has reached was reported.

* `Timer.Before`: by the deadline, then by the token;
* `TimerQueue.due`: what a move of the clock reports;
* `TimerQueue.Operation`, `apply`, `issued`, `result`, `fired`: calls and what they yield;
* `TimerQueue.Fits`: a call does not reach the end of time;
* `TimerQueue.Settled`, `Settled.schedule`, `Settled.clear`, `Settled.advance`: the invariant, call by call;
* **`TimerQueue.Settled.apply`**: a call keeps it.
-/

namespace DomHost

/-- Comes due earlier, or at the same time with a smaller token. -/
def Timer.Before (a b : Timer) : Prop :=
  a.deadline < b.deadline ∨ a.deadline = b.deadline ∧ a.token.number < b.token.number

namespace TimerQueue

variable {q : TimerQueue} {t u : Timer} {token : TimerToken} {log : List Timer} {now : Instant}

/-! ## One operation -/

theorem precedes_iff : precedes t u = true ↔ ¬ u.Before t := by
  simp only [precedes, Timer.Before, Bool.or_eq_true, Bool.and_eq_true, decide_eq_true_eq, beq_iff_eq,
    UInt32.le_iff_toNat_le, UInt32.lt_iff_toNat_lt]
  grind

theorem precedes_trans (t u v : Timer) (h : precedes t u = true) (h' : precedes u v = true) :
    precedes t v = true := by
  simp only [precedes_iff, Timer.Before, UInt32.lt_iff_toNat_lt] at *
  grind

theorem precedes_total (t u : Timer) : (precedes t u || precedes u t) = true := by
  simp only [Bool.or_eq_true, precedes_iff, Timer.Before, UInt32.lt_iff_toNat_lt]
  grind

/-- The timers that are due at a time, in order. -/
def due (q : TimerQueue) (now : Instant) : List Timer :=
  (q.timers.filter (·.deadline ≤ max q.now now)).mergeSort precedes

theorem mem_due : t ∈ q.due now ↔ t ∈ q.timers ∧ t.deadline ≤ max q.now now := by
  rw [due, List.mem_mergeSort, List.mem_filter, decide_eq_true_eq]

theorem advance_fst : (q.advance now).1 = (q.due now).map (·.token) := rfl

/-- What is pending when the clock was moved was pending later than that, or is an interval that came
due and waits again. -/
theorem mem_advance : u ∈ (q.advance now).2.timers ↔
    u ∈ q.timers ∧ max q.now now < u.deadline ∨ ∃ t ∈ q.due now, rearm (max q.now now) t = some u := by
  simp only [advance, List.mem_filterMap, mem_due]
  constructor
  · rintro ⟨t, ht, hu⟩
    split_ifs at hu with hd
    · exact .inr ⟨t, ⟨ht, hd⟩, hu⟩
    · obtain rfl := Option.some.inj hu
      exact .inl ⟨ht, Nat.not_le.mp hd⟩
  · rintro (⟨hu, hd⟩ | ⟨t, ⟨ht, hd⟩, hu⟩)
    · exact ⟨u, hu, if_neg (Nat.not_le.mpr hd)⟩
    · exact ⟨t, ht, by rw [if_pos hd, hu]⟩

theorem token_of_rearm (h : (if t.deadline ≤ now then rearm now t else some t) = some u) :
    u.token = t.token := by
  split_ifs at h
  · obtain ⟨period, -, rfl⟩ := Option.map_eq_some_iff.mp h
    rfl
  · rw [← Option.some.inj h]

theorem nodup_due (h : (q.timers.map (·.token)).Nodup) : ((q.due now).map (·.token)).Nodup := by
  rw [due, ((List.mergeSort_perm _ _).map _).nodup_iff]
  exact h.sublist (List.filter_sublist.map _)

theorem pairwise_due (h : (q.timers.map (·.token)).Nodup) : (q.due now).Pairwise Timer.Before := by
  have hs : (q.due now).Pairwise fun t u => precedes t u = true :=
    List.pairwise_mergeSort precedes_trans precedes_total _
  have hdistinct : ((q.due now).map (·.token)).Nodup := nodup_due h
  refine (hs.and (List.pairwise_map.mp hdistinct)).imp fun {t u} ⟨hle, hne⟩ => ?_
  have hn : t.token.number.toNat ≠ u.token.number.toNat := fun he =>
    hne (congrArg TimerToken.mk (UInt32.toNat_inj.mp he))
  simp only [precedes_iff, Timer.Before, UInt32.lt_iff_toNat_lt] at hle ⊢
  grind

/-- The pending timer with a token. -/
def find? (q : TimerQueue) (token : TimerToken) : Option Timer := q.timers.find? (·.token == token)

theorem find?_eq_some (h : (q.timers.map (·.token)).Nodup) (ht : t ∈ q.timers) :
    q.find? t.token = some t := by
  cases hf : q.find? t.token with
  | none => exact absurd (List.find?_eq_none.mp hf t ht) (by simp)
  | some u =>
    have hu : u.token = t.token := by simpa using List.find?_some hf
    rw [List.inj_on_of_nodup_map h (List.mem_of_find?_eq_some hf) ht hu]

/-! ## Calls -/

/-- A call on the timers, with any arguments. -/
inductive Operation where
  | setTimeout (delay : Instant)
  | setInterval (period : Instant)
  | clear (token : TimerToken)
  | advance (now : Instant)

/-- The timers after a call. -/
def apply (q : TimerQueue) : Operation → TimerQueue
  | .setTimeout delay => (q.setTimeout delay).2
  | .setInterval period => (q.setInterval period).2
  | .clear token => (q.clear token).2
  | .advance now => (q.advance now).2

/-- The token a call hands out. -/
def issued (q : TimerQueue) : Operation → List TimerToken
  | .setTimeout delay => [(q.setTimeout delay).1]
  | .setInterval period => [(q.setInterval period).1]
  | .clear _ | .advance _ => []

/-- The tokens a call reports. -/
def result (q : TimerQueue) : Operation → List TimerToken
  | .advance now => (q.advance now).1
  | .setTimeout _ | .setInterval _ | .clear _ => []

/-- The timers behind the tokens a call reports, as they were when they came due. -/
def fired (q : TimerQueue) (o : Operation) : List Timer := (q.result o).filterMap q.find?

/-- No sum of a time and a span reaches the end of time. An interval is put off by its period, and from
the clock if that is not enough. -/
def Fits (q : TimerQueue) : Operation → Prop
  | .setTimeout delay => q.now + delay < Instant.limit
  | .setInterval period => q.now + max period (Instant.ofMillis 1) < Instant.limit
  | .clear _ => True
  | .advance now => ∀ t ∈ q.timers, t.deadline ≤ max q.now now → ∀ period ∈ t.period,
    t.deadline + period < Instant.limit ∧
      (t.deadline + period ≤ max q.now now → max q.now now + period < Instant.limit)

instance (q : TimerQueue) : (o : Operation) → Decidable (q.Fits o)
  | .setTimeout _ | .setInterval _ => inferInstanceAs (Decidable (_ < _))
  | .clear _ => inferInstanceAs (Decidable True)
  | .advance _ => inferInstanceAs (Decidable (∀ t ∈ _, _ → ∀ period ∈ _, _))

/-! ## The invariant -/

theorem toNat_add_one {n : UInt32} (h : n.toNat + 1 < 2 ^ 32) : (n + 1).toNat = n.toNat + 1 := by
  rw [UInt32.toNat_add]
  exact Nat.mod_eq_of_lt h

theorem lt_add_one {n : UInt32} (h : n.toNat + 1 < 2 ^ 32) : n < n + 1 := by
  rw [UInt32.lt_iff_toNat_lt, toNat_add_one h]
  exact Nat.lt_succ_self _

/-- The invariant, with the timers that were reported so far: each of these comes before all that are
pending. -/
structure Settled (q : TimerQueue) (log : List Timer) : Prop where
  nodup : (q.timers.map (·.token)).Nodup
  known : ∀ t ∈ q.timers, t.token.number ≤ q.lastToken
  periods : ∀ t ∈ q.timers, ∀ period ∈ t.period, 0 < period
  past : ∀ t ∈ log, t.deadline ≤ q.now ∧ t.token.number ≤ q.lastToken
  ordered : log.Pairwise Timer.Before
  before : ∀ t ∈ log, ∀ u ∈ q.timers, t.Before u

theorem settled_new : Settled {} [] := by constructor <;> simp

section Settled

variable (h : q.Settled log)
include h

/-- A new timer has a token that none has. -/
theorem Settled.timers_schedule (hn : q.lastToken.toNat + 1 < 2 ^ 32) (delay : Instant)
    (period : Option Instant) (hfits : q.now + delay < Instant.limit) :
    (q.schedule delay period).2.timers = ⟨⟨q.lastToken + 1⟩, q.now + delay, period⟩ :: q.timers := by
  have hnew : ∀ t ∈ q.timers, (t.token != ⟨q.lastToken + 1⟩) = true := by
    intro t ht
    have hlt := UInt32.lt_of_le_of_lt (h.known t ht) (lt_add_one hn)
    rw [bne_iff_ne]
    intro he
    rw [he] at hlt
    exact UInt32.lt_irrefl _ hlt
  simp only [TimerQueue.schedule, Instant.later, Nat.min_eq_left (Nat.le_of_lt hfits),
    List.filter_eq_self.mpr hnew]

theorem Settled.timers_setInterval (hn : q.lastToken.toNat + 1 < 2 ^ 32) {period : Instant}
    (hfits : q.Fits (.setInterval period)) :
    (q.setInterval period).2.timers = ⟨⟨q.lastToken + 1⟩, q.now + max period (Instant.ofMillis 1),
      some (max period (Instant.ofMillis 1))⟩ :: q.timers :=
  h.timers_schedule hn _ _ hfits

theorem Settled.schedule (hn : q.lastToken.toNat + 1 < 2 ^ 32) {delay : Instant}
    {period : Option Instant} (hfits : q.now + delay < Instant.limit) (hperiod : ∀ p ∈ period, 0 < p) :
    (q.schedule delay period).2.Settled log := by
  have htimers := h.timers_schedule hn delay period hfits
  have hlt := lt_add_one hn
  refine ⟨?_, ?_, ?_, ?_, h.ordered, ?_⟩
  · rw [htimers, List.map_cons, List.nodup_cons]
    refine ⟨fun hm => ?_, h.nodup⟩
    obtain ⟨t, ht, he⟩ := List.mem_map.mp hm
    have hle := h.known t ht
    rw [he] at hle
    exact UInt32.lt_irrefl _ (UInt32.lt_of_lt_of_le hlt hle)
  · rw [htimers, List.forall_mem_cons]
    exact ⟨UInt32.le_refl _, fun t ht => UInt32.le_trans (h.known t ht) (UInt32.le_of_lt hlt)⟩
  · rw [htimers, List.forall_mem_cons]
    exact ⟨hperiod, h.periods⟩
  · exact fun t ht => ⟨(h.past t ht).1, UInt32.le_trans (h.past t ht).2 (UInt32.le_of_lt hlt)⟩
  · intro t ht
    rw [htimers, List.forall_mem_cons]
    refine ⟨?_, h.before t ht⟩
    -- the deadline is not behind the clock, and at the clock the larger token decides
    obtain ⟨hd, hk⟩ := h.past t ht
    rcases Nat.lt_or_eq_of_le (Nat.le_trans hd (Nat.le_add_right q.now delay)) with hd | hd
    · exact .inl hd
    · exact .inr ⟨hd, UInt32.lt_of_le_of_lt hk hlt⟩

theorem Settled.clear (token : TimerToken) : (q.clear token).2.Settled log where
  nodup := h.nodup.sublist (List.filter_sublist.map _)
  known := fun t ht => h.known t (List.mem_of_mem_filter ht)
  periods := fun t ht => h.periods t (List.mem_of_mem_filter ht)
  past := h.past
  ordered := h.ordered
  before := fun t ht u hu => h.before t ht u (List.mem_of_mem_filter hu)

/-- An interval that came due waits for a time that is still to come. -/
theorem Settled.rearm (hfits : q.Fits (.advance now)) (ht : t ∈ q.due now) {period : Instant}
    (hperiod : t.period = some period) : ∃ deadline > max q.now now,
      rearm (max q.now now) t = some { t with deadline } := by
  obtain ⟨ht, hd⟩ := mem_due.mp ht
  have hp := h.periods t ht period hperiod
  obtain ⟨hnext, hagain⟩ := hfits t ht hd period hperiod
  refine ⟨_, ?_, by rw [TimerQueue.rearm, hperiod]; rfl⟩
  rw [show Instant.later t.deadline period = t.deadline + period from Nat.min_eq_left (Nat.le_of_lt hnext)]
  split_ifs with hle
  · rw [show Instant.later _ period = _ + period from Nat.min_eq_left (Nat.le_of_lt (hagain hle))]
    exact Nat.lt_add_of_pos_right hp
  · exact Nat.not_le.mp hle

theorem Settled.of_rearm (hfits : q.Fits (.advance now)) (ht : t ∈ q.due now)
    (hu : TimerQueue.rearm (max q.now now) t = some u) :
    u.token = t.token ∧ u.period = t.period ∧ max q.now now < u.deadline := by
  obtain ⟨period, hp, -⟩ := Option.map_eq_some_iff.mp hu
  obtain ⟨deadline, hlt, he⟩ := h.rearm hfits ht hp
  obtain rfl := Option.some.inj (he.symm.trans hu)
  exact ⟨rfl, rfl, hlt⟩

theorem Settled.lt_deadline (hfits : q.Fits (.advance now)) (hu : u ∈ (q.advance now).2.timers) :
    max q.now now < u.deadline := by
  rcases mem_advance.mp hu with ⟨-, hlt⟩ | ⟨t, ht, hr⟩
  · exact hlt
  · exact (h.of_rearm hfits ht hr).2.2

theorem Settled.advance (hfits : q.Fits (.advance now)) :
    (q.advance now).2.Settled (log ++ q.due now) := by
  have hfrom : ∀ u ∈ (q.advance now).2.timers, ∃ t ∈ q.timers, u.token = t.token ∧ u.period = t.period := by
    intro u hu
    rcases mem_advance.mp hu with ⟨hu, -⟩ | ⟨t, ht, hr⟩
    · exact ⟨u, hu, rfl, rfl⟩
    · obtain ⟨htoken, hperiod, -⟩ := h.of_rearm hfits ht hr
      exact ⟨t, (mem_due.mp ht).1, htoken, hperiod⟩
  have hpast : ∀ t ∈ log ++ q.due now, t.deadline ≤ max q.now now ∧ t.token.number ≤ q.lastToken := by
    intro t ht
    rcases List.mem_append.mp ht with ht | ht
    · exact ⟨Nat.le_trans (h.past t ht).1 (Nat.le_max_left _ _), (h.past t ht).2⟩
    · obtain ⟨ht, hd⟩ := mem_due.mp ht
      exact ⟨hd, h.known t ht⟩
  refine ⟨?_, ?_, ?_, hpast, ?_, ?_⟩
  · rw [List.Nodup, List.pairwise_map]
    refine List.pairwise_filterMap.mpr ((List.pairwise_map.mp h.nodup).imp ?_)
    intro t u hne t' ht u' hu
    rwa [token_of_rearm ht, token_of_rearm hu]
  · intro u hu
    obtain ⟨t, ht, he, -⟩ := hfrom u hu
    exact he ▸ h.known t ht
  · intro u hu
    obtain ⟨t, ht, -, he⟩ := hfrom u hu
    exact he ▸ h.periods t ht
  · rw [List.pairwise_append]
    exact ⟨h.ordered, pairwise_due h.nodup, fun t ht u hu => h.before t ht u (mem_due.mp hu).1⟩
  · exact fun t ht u hu => .inl (Nat.lt_of_le_of_lt (hpast t ht).1 (h.lt_deadline hfits hu))

/-- What a move of the clock reports stands for the timers that were due. -/
theorem Settled.fired_advance : q.fired (.advance now) = q.due now := by
  rw [fired, result, advance_fst, List.filterMap_map]
  refine (List.filterMap_congr fun t ht => ?_).trans List.filterMap_some
  exact find?_eq_some h.nodup (mem_due.mp ht).1

/-- **An operation keeps the invariant.** -/
theorem Settled.apply {o : Operation} (hfits : q.Fits o)
    (hn : q.lastToken.toNat + (q.issued o).length < 2 ^ 32) : (q.apply o).Settled (log ++ q.fired o) := by
  cases o with
  | setTimeout delay =>
    have hperiod : ∀ p ∈ (none : Option Instant), 0 < p := by simp
    have hs := h.schedule hn hfits hperiod
    rwa [← List.append_nil log] at hs
  | setInterval period =>
    have hp : 0 < max period (Instant.ofMillis 1) :=
      Nat.lt_of_lt_of_le (by decide) (Nat.le_max_right period (Instant.ofMillis 1))
    have hperiod : ∀ p ∈ some (max period (Instant.ofMillis 1)), 0 < p := by simpa using hp
    have hs := h.schedule hn hfits hperiod
    rwa [← List.append_nil log] at hs
  | clear token =>
    have hs := h.clear token
    rwa [← List.append_nil log] at hs
  | advance now =>
    rw [h.fired_advance]
    exact h.advance hfits

end Settled

/-- The token that is handed out is the next one. -/
theorem lastToken_apply (q : TimerQueue) (o : Operation)
    (hn : q.lastToken.toNat + (q.issued o).length < 2 ^ 32) :
    (q.apply o).lastToken.toNat = q.lastToken.toNat + (q.issued o).length ∧
      ∀ token ∈ q.issued o, q.lastToken < token.number ∧ token.number ≤ (q.apply o).lastToken := by
  cases o with
  | setTimeout delay | setInterval period =>
    refine ⟨toNat_add_one hn, fun token ht => ?_⟩
    rw [List.mem_singleton.mp ht]
    exact ⟨lt_add_one hn, UInt32.le_refl _⟩
  | clear token | advance now => exact ⟨rfl, by simp [issued]⟩

end TimerQueue

end DomHost
