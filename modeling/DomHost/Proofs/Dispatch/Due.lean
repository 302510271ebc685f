import DomHost.Proofs.Dispatch.Order
import DomHost.Proofs.Listener.Delegates
import Mathlib.Algebra.GroupWithZero.Nat

/-!
# Which listeners that catch events are due

Of the listeners that catch events for the compute module, one at most is due for an event: the one for its
name, on the way down or on the way up. It is called unless another listener stops the event before.

* `Document.countP_agenda`: how many of these listeners are due;
* **`Document.countP_agenda_le_one`**, **`Document.countP_agenda_eq_one`**: one at most, and when it is one;
* **`Document.Heeds.countP_eq_one`**: the one that is due is called.
-/

namespace DomHost

namespace Host

theorem countP_staff (type : String) (capture : Bool) :
    staff.countP (fun l => l.type == type && l.options.capture == capture) =
      if type ∈ delegatedNames ∧ capture = !bubblesByName type then 1 else 0 := by
  have hname : staff.countP (fun l => l.type == type && l.options.capture == capture) =
      delegatedNames.countP fun name => name == type && (!bubblesByName type) == capture := by
    rw [staff, List.countP_map]
    refine List.countP_congr fun name _ => ?_
    by_cases hn : name = type
    · simp [delegateListener, hn]
    · simp [delegateListener, hn]
  rw [hname]
  by_cases hc : capture = !bubblesByName type
  · simp only [hc, beq_self_eq_true, Bool.and_true, and_true]
    rw [← List.count]
    split_ifs with hm
    · exact List.count_eq_one_of_mem nodup_delegatedNames hm
    · exact List.count_eq_zero_of_not_mem hm
  · rw [if_neg fun h => hc h.2, List.countP_eq_zero]
    intro name _
    simp [Ne.symm hc]

end Host

namespace Document

variable {d : Document} {e : NativeEvent} {scope : NodeRef} {due : List (List Turn)} {made : List Made}

/-- Is it the turn of a listener that catches events for the compute module? -/
def Turn.delegated (t : Turn) : Bool := t.handler == delegateHandler

theorem countP_turns (g : Registry) (type : String) (target : NodeRef) (capture : Bool) (node : NodeRef) :
    (turns g type target capture node).countP (·.delegated) =
      (g.delegates node).countP fun l => l.type == type && l.options.capture == capture := by
  rw [turns, List.countP_map, attending, Registry.listenersFor, Registry.delegates, List.countP_filter,
    List.countP_filter, List.countP_filter]
  refine List.countP_congr fun l _ => ?_
  simp only [Function.comp_apply, Turn.delegated, Bool.and_eq_true, beq_iff_eq]
  tauto

/-- What is due on one node only is due as often as the node is visited. -/
theorem sum_map_ite (path : List NodeRef) (scope : NodeRef) (k : Nat) :
    (path.map fun x => if x = scope then k else 0).sum = path.count scope * k := by
  induction path with
  | nil => simp
  | cons x path ih =>
    rw [List.map_cons, List.sum_cons, ih, List.count_cons, Nat.add_mul, Nat.add_comm]
    by_cases hx : x = scope <;> simp [hx]

/-- **How many listeners that catch events are due for an event.** -/
theorem countP_agenda (hs : ∀ x, d.listeners.delegates x = if x = scope then Host.staff else [])
    (e : NativeEvent) :
    (agenda d e).flatten.countP (·.delegated) =
      if e.type ∈ delegatedNames then
        (if bubblesByName e.type && !e.bubbles then [e.target] else d.store.ancestors e.target).count scope
      else 0 := by
  have hgroup : ∀ (path : List NodeRef) (capture : Bool),
      ((path.map (turns d.listeners e.type e.target capture)).map (·.countP (·.delegated))).sum =
        path.count scope * if e.type ∈ delegatedNames ∧ capture = !bubblesByName e.type then 1 else 0 := by
    intro path capture
    rw [List.map_map, ← sum_map_ite]
    refine congrArg List.sum (List.map_congr_left fun x _ => ?_)
    rw [Function.comp_apply, countP_turns, hs]
    by_cases hx : x = scope
    · rw [if_pos hx, if_pos hx]
      exact Host.countP_staff _ _
    · rw [if_neg hx, if_neg hx]
      rfl
  rw [List.countP_flatten, agenda, List.map_append, List.sum_append, hgroup, hgroup, List.count_reverse]
  by_cases ht : e.type ∈ delegatedNames
  · cases hb : bubblesByName e.type <;> cases he : e.bubbles <;> simp [ht]
  · simp [ht]

section

variable (hs : ∀ x, d.listeners.delegates x = if x = scope then Host.staff else [])
  (hpath : (d.store.ancestors e.target).Nodup)
include hs hpath

theorem countP_agenda_le_one : (agenda d e).flatten.countP (·.delegated) ≤ 1 := by
  rw [countP_agenda hs]
  split_ifs
  · exact List.nodup_iff_count_le_one.mp (List.nodup_singleton _) _
  · exact List.nodup_iff_count_le_one.mp hpath _
  · exact Nat.zero_le 1

theorem countP_agenda_eq_one (htype : e.type ∈ delegatedNames)
    (hway : e.bubbles = true ∨ bubblesByName e.type = false) (hbelow : scope ∈ d.store.ancestors e.target) :
    (agenda d e).flatten.countP (·.delegated) = 1 := by
  rw [countP_agenda hs, if_pos htype, if_neg, List.count_eq_one_of_mem hpath hbelow]
  rcases hway with hb | hb <;> simp [hb]

end

/-- No more of these listeners are called than are due. -/
theorem Heeds.countP_le (h : Heeds due made) :
    made.countP (·.delegated) ≤ due.flatten.countP (·.delegated) := by
  have hsub := h.turns.sublist.countP_le (p := fun t : Turn => t.delegated)
  rwa [List.countP_map] at hsub

/-- One that is due is called unless another call stops the event. -/
theorem Heeds.countP_eq_one (h : Heeds due made) (hdue : due.flatten.countP (·.delegated) = 1)
    (hstop : ∀ c ∈ made, c.stops = true → c.delegated = true) : made.countP (·.delegated) = 1 := by
  have hle := h.countP_le
  rw [hdue] at hle
  refine le_antisymm hle (Nat.one_le_iff_ne_zero.mpr fun h0 => ?_)
  rw [List.countP_eq_zero] at h0
  -- without such a call nothing stops the event, so everything that is due is called
  have hnone : made.findIdx? (·.stops) = none := List.findIdx?_eq_none_iff.mpr fun c hc =>
    Bool.eq_false_iff.mpr fun hs => h0 c hc (hstop c hc hs)
  have hall : made.map (·.toTurn) = due.flatten :=
    h.turns.eq_of_length (by rw [List.length_map, h.all hnone])
  rw [← hall, List.countP_map] at hdue
  have hzero : made.countP (·.delegated) = 0 := List.countP_eq_zero.mpr h0
  exact absurd (hzero.symm.trans hdue) (by decide)

end Document

end DomHost
