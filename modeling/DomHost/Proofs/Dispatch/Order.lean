import DomHost.Proofs.Dispatch
import DomHost.Proofs.Forest.Paths
import DomHost.Proofs.Store.WellFormed

/-!
# The order of a dispatch

An event has an agenda: on the way down the listeners of the capture phase, group by group, and on the way
up the others. The handlers that are called are those of the agenda up to a point that they set themselves,
as each may stop the event at once or at the end of its group.

* `Document.agenda`: the groups of calls that are due;
* `Document.Made`, `Document.recording`: the calls that are made, and how they are written down;
* `Document.Taken`, `Document.Heard`: what is called of a group and of several groups;
* `Document.exists_heard`, `Document.exists_dispatch`: a dispatch calls what is due;
* `Document.Heeds`: the same by the position of the first call that stops;
* **`Document.dispatch_heeds`**: the order of a dispatch.
-/

namespace DomHost

namespace NativeEvent

/-- The event after its dispatch. -/
def leave (e : NativeEvent) : NativeEvent := { e with phase := .none, currentTarget := .nowhere }

/-- The event after several handlers have asked. -/
def obeyAll (e : NativeEvent) (cs : List EventControl) : NativeEvent := cs.foldl obey e

variable {e : NativeEvent} {c : EventControl} {cs cs' : List EventControl}

theorem obeyAll_append : e.obeyAll (cs ++ cs') = (e.obeyAll cs).obeyAll cs' := List.foldl_append

theorem leave_obeyAll : (e.obeyAll cs).leave = e.leave.obeyAll cs := by
  induction cs generalizing e with
  | nil => rfl
  | cons c cs ih => exact ih (e := e.obey c)

/-- What the handlers do to the flags of an event. -/
theorem flags_obeyAll (e : NativeEvent) (cs : List EventControl) :
    (e.obeyAll cs).defaultPrevented =
      (e.defaultPrevented || cs.any fun c => c.preventDefault && e.cancelable) ∧
    (e.obeyAll cs).propagationStopped =
      (e.propagationStopped || cs.any fun c => c.stopPropagation || c.stopImmediate) ∧
    (e.obeyAll cs).immediateStopped = (e.immediateStopped || cs.any (·.stopImmediate)) := by
  induction cs generalizing e with
  | nil => simp [obeyAll]
  | cons c cs ih =>
    obtain ⟨hd, hp, hi⟩ := ih (e.obey c)
    simp only [List.any_cons, ← Bool.or_assoc]
    exact ⟨hd, hp, hi⟩

/-- The handlers do not change what an event is for. -/
theorem obeyAll_type : (e.obeyAll cs).type = e.type ∧ (e.obeyAll cs).target = e.target := by
  induction cs generalizing e with
  | nil => exact ⟨rfl, rfl⟩
  | cons c cs ih => exact ih (e := e.obey c)

end NativeEvent

namespace Document

variable {σ : Type} {invoke : Invoke σ} {stop : Stop}

/-! ## What is due and what is called -/

/-- A call that is due: the handler, and the node and the phase it finds the event at. -/
structure Turn where
  handler : HandlerId
  node : NodeRef
  phase : EventPhase
deriving DecidableEq

/-- A call that was made, with what the handler asked for. -/
structure Made extends Turn where
  control : EventControl
deriving DecidableEq

/-- Does the call stop the event, at once or behind its group? -/
def Made.stops (c : Made) : Bool := c.control.stopPropagation || c.control.stopImmediate

/-- The listeners of a node and phase for a type of event, oldest first. -/
def attending (g : Registry) (type : String) (stop : Stop) : List Listener :=
  (g.listenersFor stop.node type).filter (·.options.capture == stop.capture)

/-- The calls that are due for a node on the way down or on the way up. -/
def turns (g : Registry) (type : String) (target : NodeRef) (capture : Bool) (node : NodeRef) :
    List Turn :=
  (attending g type ⟨node, capture⟩).map fun l =>
    ⟨l.handler, node, if node = target then .atTarget else if capture then .capturing else .bubbling⟩

/-- The groups of calls that are due for an event: for each node from the top down to the target, and
then from the target up, where an event that does not bubble goes no further than the target. -/
def agenda (d : Document) (e : NativeEvent) : List (List Turn) :=
  let path := d.store.ancestors e.target
  path.reverse.map (turns d.listeners e.type e.target true) ++
    (if e.bubbles then path else [e.target]).map (turns d.listeners e.type e.target false)

/-- Calls handlers and writes down what they saw and what they asked for. -/
def recording (invoke : Invoke σ) : Invoke (List Made × σ) := fun d id e st =>
  let (control, caller) := invoke d id e st.2
  (control, (st.1 ++ [⟨⟨id, e.currentTarget, e.phase⟩, control⟩], caller))

/-- Writing down what is called changes nothing else. -/
theorem shadows_recording (invoke : Invoke σ) : Shadows Prod.snd (recording invoke) invoke :=
  fun _ _ _ _ => ⟨rfl, rfl⟩

/-- The calls made of those of a group: all of them, or those up to the first that stops at once. -/
inductive Taken : List Turn → List Made → Prop
  | nil : Taken [] []
  | next {c due made} : c.control.stopImmediate = false → Taken due made →
    Taken (c.toTurn :: due) (c :: made)
  | atOnce {c due} : c.control.stopImmediate = true → Taken (c.toTurn :: due) [c]

/-- The calls made of those of some groups: all groups are taken, or those up to the first in which a
call stops the event. -/
inductive Heard : List (List Turn) → List Made → Prop
  | nil : Heard [] []
  | next {group groups made rest} : Taken group made → made.any (·.stops) = false →
    Heard groups rest → Heard (group :: groups) (made ++ rest)
  | stopped {group groups made} : Taken group made → made.any (·.stops) = true →
    Heard (group :: groups) made

/-! ## Visits -/

variable {v : Delivery (List Made × σ)}

theorem exists_taken (invoke : Invoke σ) (stop : Stop) (ls : List Listener)
    (hv : v.event.immediateStopped = false) :
    ∃ made, Taken (ls.map fun l => ⟨l.handler, v.event.currentTarget, v.event.phase⟩) made ∧
      (callAll (recording invoke) stop ls v).caller.1 = v.caller.1 ++ made ∧
      (callAll (recording invoke) stop ls v).event = v.event.obeyAll (made.map (·.control)) := by
  induction ls generalizing v with
  | nil => exact ⟨[], .nil, (List.append_nil _).symm, rfl⟩
  | cons l ls ih =>
    let w := call (recording invoke) stop l v
    obtain ⟨c, hturn, hcaller, hevent⟩ : ∃ c : Made,
        c.toTurn = ⟨l.handler, v.event.currentTarget, v.event.phase⟩ ∧
        w.caller.1 = v.caller.1 ++ [c] ∧ w.event = v.event.obey c.control := ⟨⟨_, _⟩, rfl, rfl, rfl⟩
    have hstop : w.event.immediateStopped = c.control.stopImmediate := by
      rw [hevent, NativeEvent.obey, hv, Bool.false_or]
    rw [callAll, List.map_cons, ← hturn]
    split_ifs with hw
    · exact ⟨[c], .atOnce (hstop.symm.trans hw), hcaller, hevent⟩
    · rw [Bool.not_eq_true] at hw
      obtain ⟨made, htaken, hrest, hlast⟩ := ih hw
      have hsame : w.event.currentTarget = v.event.currentTarget ∧ w.event.phase = v.event.phase := by
        rw [hevent]
        exact ⟨rfl, rfl⟩
      rw [hsame.1, hsame.2] at htaken
      refine ⟨c :: made, .next (hstop.symm.trans hw) htaken, ?_, ?_⟩
      · rw [hrest, hcaller, List.append_assoc]
        rfl
      · rw [hlast, hevent]
        rfl

/-- The listeners of a node and phase stay when one of another node or phase is removed. -/
theorem attending_remove {g : Registry} (hg : g.nodes.Nodup) {type removed : String}
    {node : NodeRef} {handler : HandlerId} {capture : Bool} (hs : stop ≠ ⟨node, capture⟩) :
    attending (g.remove node removed handler capture).2 type stop = attending g type stop := by
  unfold attending Registry.listenersFor
  rw [Registry.ofNode_remove hg]
  by_cases hn : stop.node = node
  · rw [if_pos hn, hn]
    simp only [List.filter_filter]
    refine List.filter_congr fun l _ => ?_
    -- the node is the same, so the phases differ, and the removed listener is not one of these
    have hc : stop.capture ≠ capture := by
      rintro rfl
      exact hs (by rw [← hn])
    cases hk : l.hasKey removed handler capture with
    | false => simp
    | true =>
      have hl : l.options.capture = capture := (Registry.hasKey_iff.mp hk).2.2
      have hne : (l.options.capture == stop.capture) = false := by
        rw [hl]
        exact beq_eq_false_iff_ne.mpr hc.symm
      rw [hne, Bool.false_and, Bool.false_and]
  · rw [if_neg hn]

/-- A visit leaves the listeners of other nodes and phases alone. -/
theorem visit_listeners (invoke : Invoke σ) (stop : Stop) {v : Delivery σ}
    (hv : v.document.listeners.nodes.Nodup) :
    (visit invoke stop v).document.listeners.nodes.Nodup ∧ ∀ (type : String) (other : Stop), other ≠ stop →
      attending (visit invoke stop v).document.listeners type other =
        attending v.document.listeners type other := by
  refine callAll_document (P := fun d => d.listeners.nodes.Nodup ∧ ∀ (type : String) (other : Stop),
    other ≠ stop → attending d.listeners type other = attending v.document.listeners type other)
    ?_ ⟨hv, fun _ _ _ => rfl⟩
  rintro d type handler ⟨hd, hsame⟩
  exact ⟨Registry.nodup_remove hd _ _ _ _,
    fun type other ho => (attending_remove hd ho).trans (hsame type other ho)⟩

/-- The calls of one visit. -/
theorem exists_taken_visit (invoke : Invoke σ) (stop : Stop)
    (hv : v.event.immediateStopped = false) :
    ∃ made, Taken (turns v.document.listeners v.event.type v.event.target stop.capture stop.node) made ∧
      (visit (recording invoke) stop v).caller.1 = v.caller.1 ++ made ∧
      (visit (recording invoke) stop v).event.leave = (v.event.obeyAll (made.map (·.control))).leave := by
  obtain ⟨made, htaken, hcaller, hevent⟩ := exists_taken invoke stop
    (attending v.document.listeners v.event.type stop)
    (v := { v with
      event := { v.event with phase := phaseAt v.event.target stop, currentTarget := stop.node } }) hv
  refine ⟨made, htaken, hcaller, ?_⟩
  rw [NativeEvent.leave_obeyAll]
  exact (congrArg NativeEvent.leave hevent).trans NativeEvent.leave_obeyAll

theorem any_stopImmediate {made : List Made} (h : made.any (·.stops) = false) :
    made.any (·.control.stopImmediate) = false := by
  rw [List.any_eq_false] at h ⊢
  exact fun c hc hs => h c hc ((Bool.or_eq_true _ _).mpr (.inr hs))

/-- The calls of several visits of different nodes and phases. -/
theorem exists_heard (invoke : Invoke σ) {stops : List Stop} (hstops : stops.Nodup)
    (hlisteners : v.document.listeners.nodes.Nodup) (hstop : v.event.propagationStopped = false)
    (hatOnce : v.event.immediateStopped = false) :
    ∃ made, Heard (stops.map fun stop =>
        turns v.document.listeners v.event.type v.event.target stop.capture stop.node) made ∧
      (visitAll (recording invoke) stops v).caller.1 = v.caller.1 ++ made ∧
      (visitAll (recording invoke) stops v).event.leave =
        (v.event.obeyAll (made.map (·.control))).leave := by
  induction stops generalizing v with
  | nil => exact ⟨[], .nil, (List.append_nil _).symm, rfl⟩
  | cons stop stops ih =>
    obtain ⟨hnot, hstops⟩ := List.nodup_cons.mp hstops
    obtain ⟨made, htaken, hcaller, hevent⟩ := exists_taken_visit invoke stop hatOnce
    obtain ⟨hnodes, hsame⟩ := visit_listeners (recording invoke) stop hlisteners
    rw [visitAll, List.map_cons]
    set w := visit (recording invoke) stop v
    obtain ⟨-, hp, hi⟩ := NativeEvent.flags_obeyAll v.event (made.map (·.control))
    have hstopped : w.event.propagationStopped = made.any (·.stops) := by
      have hw := congrArg NativeEvent.propagationStopped hevent
      rw [hstop, Bool.false_or, List.any_map] at hp
      exact hw.trans hp
    split_ifs with hw
    · exact ⟨made, .stopped htaken (hstopped.symm.trans hw), hcaller, hevent⟩
    · rw [Bool.not_eq_true] at hw
      have hcalm : made.any (·.stops) = false := hstopped.symm.trans hw
      have himm : w.event.immediateStopped = false := by
        refine (congrArg NativeEvent.immediateStopped hevent).trans (hi.trans ?_)
        rw [hatOnce, Bool.false_or, List.any_map]
        exact any_stopImmediate hcalm
      have htype : w.event.type = v.event.type :=
        (congrArg NativeEvent.type hevent).trans NativeEvent.obeyAll_type.1
      have htarget : w.event.target = v.event.target :=
        (congrArg NativeEvent.target hevent).trans NativeEvent.obeyAll_type.2
      obtain ⟨rest, hheard, hcallers, hlast⟩ := ih hstops hnodes hw himm
      have hgroups : (stops.map fun other =>
          turns w.document.listeners w.event.type w.event.target other.capture other.node) =
          stops.map fun other =>
            turns v.document.listeners v.event.type v.event.target other.capture other.node := by
        refine List.map_congr_left fun other ho => ?_
        rw [htype, htarget, turns, hsame _ _ fun he => hnot (he ▸ ho)]
        rfl
      rw [hgroups] at hheard
      refine ⟨made ++ rest, .next htaken hcalm hheard, ?_, ?_⟩
      · rw [hcallers, hcaller, List.append_assoc]
      · rw [hlast, NativeEvent.leave_obeyAll, hevent, ← NativeEvent.leave_obeyAll, List.map_append,
          NativeEvent.obeyAll_append]

/-! ## Up to which call -/

/-- The number of members up to the end of the group that holds a member by its number. -/
def endOf {α : Type} : List (List α) → Nat → Nat
  | [], _ => 0
  | group :: groups, i =>
    if i < group.length then group.length else group.length + endOf groups (i - group.length)

/-- The calls that are made of those that are due: none behind the first that stops at once, none behind
the group of the first that stops, and no less than this. -/
structure Heeds (due : List (List Turn)) (made : List Made) : Prop where
  turns : made.map (·.toTurn) <+: due.flatten
  atOnce : ∀ i, made.findIdx? (·.control.stopImmediate) = some i → made.length = i + 1
  stopped : ∀ i, made.findIdx? (·.stops) = some i → made.length ≤ endOf due i ∧
    (made.findIdx? (·.control.stopImmediate) = none → made.length = endOf due i)
  all : made.findIdx? (·.stops) = none → made.length = due.flatten.length

variable {due : List Turn} {groups : List (List Turn)} {made : List Made}

theorem Taken.map_toTurn (h : Taken due made) : made.map (·.toTurn) <+: due := by
  induction h with
  | nil => exact List.nil_prefix
  | next _ _ ih => exact (List.cons_prefix_cons.mpr ⟨rfl, ih⟩)
  | atOnce _ => exact List.cons_prefix_cons.mpr ⟨rfl, List.nil_prefix⟩

theorem Taken.length_of_atOnce (h : Taken due made) (i : Nat)
    (hi : made.findIdx? (·.control.stopImmediate) = some i) : made.length = i + 1 := by
  induction h generalizing i with
  | nil => simp at hi
  | next hc _ ih =>
    rw [List.findIdx?_cons, hc] at hi
    obtain ⟨j, hj, rfl⟩ := Option.map_eq_some_iff.mp hi
    rw [List.length_cons, ih j hj]
  | atOnce hc =>
    rw [List.findIdx?_cons, hc] at hi
    obtain rfl := Option.some.inj hi
    rfl

theorem Taken.length_eq (h : Taken due made) (hn : made.findIdx? (·.control.stopImmediate) = none) :
    made.length = due.length := by
  induction h with
  | nil => rfl
  | next hc _ ih =>
    rw [List.findIdx?_cons, hc] at hn
    rw [List.length_cons, List.length_cons, ih (Option.map_eq_none_iff.mp hn)]
  | atOnce hc =>
    rw [List.findIdx?_cons, hc] at hn
    cases hn

/-- **What is called is called up to the first call that stops.** -/
theorem Heard.heeds (h : Heard groups made) : Heeds groups made := by
  induction h with
  | nil => exact ⟨List.nil_prefix, by simp, by simp, by simp⟩
  | @next group groups made rest ht hc _ ih =>
    have hnone : ∀ p : Made → Bool, made.any p = false → made.findIdx? p = none := fun p hp =>
      List.findIdx?_eq_none_iff.mpr fun c h => Bool.eq_false_iff.mpr (List.any_eq_false.mp hp c h)
    have himm := hnone _ (any_stopImmediate hc)
    have hlen := ht.length_eq himm
    have hgroup : made.map (·.toTurn) = group :=
      ht.map_toTurn.eq_of_length (by rw [List.length_map, hlen])
    -- the positions of the group are followed by those of the others
    have hatOnce : (made ++ rest).findIdx? (·.control.stopImmediate) =
        (rest.findIdx? (·.control.stopImmediate)).map (· + made.length) := by
      rw [List.findIdx?_append, himm, Option.none_or]
    have hstops : (made ++ rest).findIdx? (·.stops) =
        (rest.findIdx? (·.stops)).map (· + made.length) := by
      rw [List.findIdx?_append, hnone _ hc, Option.none_or]
    refine ⟨?_, fun i hi => ?_, fun i hi => ?_, fun hn => ?_⟩
    · rw [List.map_append, List.flatten_cons, hgroup]
      exact (List.prefix_append_right_inj group).mpr ih.turns
    · rw [hatOnce] at hi
      obtain ⟨j, hj, rfl⟩ := Option.map_eq_some_iff.mp hi
      rw [List.length_append, ih.atOnce j hj]
      omega
    · rw [hstops] at hi
      obtain ⟨j, hj, rfl⟩ := Option.map_eq_some_iff.mp hi
      have hend : endOf (group :: groups) (j + made.length) = group.length + endOf groups j := by
        rw [endOf, if_neg (by omega), hlen, Nat.add_sub_cancel]
      obtain ⟨hle, heq⟩ := ih.stopped j hj
      rw [hend, List.length_append, hlen]
      refine ⟨by omega, fun hn => ?_⟩
      rw [hatOnce, Option.map_eq_none_iff] at hn
      rw [heq hn]
    · rw [hstops, Option.map_eq_none_iff] at hn
      rw [List.length_append, List.flatten_cons, List.length_append, ih.all hn, hlen]
  | @stopped group groups made ht hs =>
    have hle : made.length ≤ group.length := by
      have hp := ht.map_toTurn.length_le
      rwa [List.length_map] at hp
    refine ⟨?_, ht.length_of_atOnce, fun i hi => ?_, fun hn => ?_⟩
    · rw [List.flatten_cons]
      exact ht.map_toTurn.trans (List.prefix_append _ _)
    · have hlt : i < made.length := (List.findIdx?_eq_some_iff_getElem.mp hi).1
      rw [endOf, if_pos (by omega)]
      exact ⟨hle, ht.length_eq⟩
    · obtain ⟨c, hc, hstop⟩ := List.any_eq_true.mp hs
      rw [List.findIdx?_eq_none_iff] at hn
      rw [hn c hc] at hstop
      cases hstop

/-! ## Dispatch -/

theorem nodup_stops {path : List NodeRef} (h : path.Nodup) (bubbles : Bool) :
    (stops path bubbles).Nodup := by
  have hup : (if bubbles then path else path.take 1).Nodup := by
    split_ifs
    · exact h
    · exact h.sublist (List.take_sublist 1 path)
  refine List.nodup_append.mpr ⟨(List.nodup_reverse.mpr h).map ?_, hup.map ?_, ?_⟩
  · exact fun a b hab => (Stop.mk.inj hab).1
  · exact fun a b hab => (Stop.mk.inj hab).1
  · intro a ha b hb hab
    obtain ⟨x, -, rfl⟩ := List.mem_map.mp ha
    obtain ⟨y, -, rfl⟩ := List.mem_map.mp hb
    cases (Stop.mk.inj hab).2

/-- The visits of an event are the groups of its agenda. -/
theorem map_stops {d : Document} {e : NativeEvent} (htarget : d.store.Live e.target) :
    ((stops (d.store.ancestors e.target) e.bubbles).map fun stop =>
      turns d.listeners e.type e.target stop.capture stop.node) = agenda d e := by
  obtain ⟨-, path, -, -, hpath⟩ := Store.exists_climb htarget
  have hfirst : (d.store.ancestors e.target).take 1 = [e.target] := by
    rw [hpath]
    rfl
  rw [stops, hfirst, List.map_append, List.map_map, List.map_map]
  rfl

theorem defaultPrevented_obeyAll {e : NativeEvent} :
    (e.obeyAll (made.map (·.control))).defaultPrevented = true ↔
      e.defaultPrevented = true ∨
        e.cancelable = true ∧ ∃ c ∈ made, c.control.preventDefault = true := by
  rw [(NativeEvent.flags_obeyAll _ _).1, Bool.or_eq_true, List.any_map, List.any_eq_true]
  refine or_congr_right ⟨?_, ?_⟩
  · rintro ⟨c, hc, hp⟩
    obtain ⟨hp, hcancel⟩ := (Bool.and_eq_true _ _).mp hp
    exact ⟨hcancel, c, hc, hp⟩
  · rintro ⟨hcancel, c, hc, hp⟩
    exact ⟨c, hc, (Bool.and_eq_true _ _).mpr ⟨hp, hcancel⟩⟩

/-- A dispatch to a live target makes the calls that are due. -/
theorem exists_dispatch (invoke : Invoke σ) {d : Document} {e : NativeEvent} (st : σ)
    (hstore : d.store.Distinct) (hlisteners : d.listeners.nodes.Nodup)
    (htarget : d.store.Live e.target) (hstop : e.propagationStopped = false)
    (hatOnce : e.immediateStopped = false) :
    ∃ w, dispatch (recording invoke) ⟨d, e, ([], st)⟩ = .ok (!w.event.defaultPrevented, w) ∧
      dispatch invoke ⟨d, e, st⟩ = .ok (!w.event.defaultPrevented, w.map Prod.snd) ∧
      Heeds (agenda d e) w.caller.1 ∧ w.event = (e.obeyAll (w.caller.1.map (·.control))).leave := by
  have hpath := hstore.nodup_ancestors e.target
  obtain ⟨made, hheard, hmade, hevent⟩ := exists_heard invoke (v := ⟨d, e, ([], st)⟩)
    (nodup_stops hpath e.bubbles) hlisteners hstop hatOnce
  rw [map_stops htarget] at hheard
  obtain ⟨n, hn⟩ := Option.isSome_iff_exists.mp (Store.get?_isSome_iff.mpr htarget)
  have hnode : d.store.node e.target = .ok n := by rw [Store.node, hn]
  let visited :=
    visitAll (recording invoke) (stops (d.store.ancestors e.target) e.bubbles) ⟨d, e, ([], st)⟩
  obtain ⟨w, hw, hcaller, hlast⟩ : ∃ w : Delivery (List Made × σ),
      w = { visited with event := visited.event.leave } ∧ w.caller.1 = made ∧
        w.event = (e.obeyAll (made.map (·.control))).leave := ⟨_, rfl, hmade, hevent⟩
  have hdispatch : dispatch (recording invoke) ⟨d, e, ([], st)⟩ = .ok (!w.event.defaultPrevented, w) := by
    rw [dispatch, hnode, hw]
    rfl
  have hsame := (shadows_recording invoke).dispatch ⟨d, e, ([], st)⟩
  rw [hdispatch] at hsame
  exact ⟨w, hdispatch, hsame.symm, hcaller ▸ hheard.heeds, hcaller ▸ hlast⟩

/-- **The order of a dispatch.** -/
theorem dispatch_heeds (invoke : Invoke σ) {d : Document} {e : NativeEvent} (st : σ)
    (hstore : d.store.Distinct) (hlisteners : d.listeners.nodes.Nodup)
    (htarget : d.store.Live e.target) (hstop : e.propagationStopped = false)
    (hatOnce : e.immediateStopped = false) :
    ∃ proceed w, dispatch (recording invoke) ⟨d, e, ([], st)⟩ = .ok (proceed, w) ∧
      dispatch invoke ⟨d, e, st⟩ = .ok (proceed, w.map Prod.snd) ∧
      Heeds (agenda d e) w.caller.1 ∧
      (proceed = false ↔ e.defaultPrevented = true ∨
        e.cancelable = true ∧ ∃ c ∈ w.caller.1, c.control.preventDefault = true) ∧
      w.event.phase = .none ∧ w.event.currentTarget = .nowhere := by
  obtain ⟨w, hdispatch, hsame, hheeds, hlast⟩ :=
    exists_dispatch invoke st hstore hlisteners htarget hstop hatOnce
  refine ⟨_, w, hdispatch, hsame, hheeds, ?_, ?_, ?_⟩
  · have hflag : w.event.defaultPrevented = (e.obeyAll (w.caller.1.map (·.control))).defaultPrevented := by
      rw [hlast]
      rfl
    rw [Bool.not_eq_false', hflag, defaultPrevented_obeyAll]
  · rw [hlast]
    rfl
  · rw [hlast]
    rfl

/-- A click whose first listener is called once and whose second one stops it on the way down, before a
third one is called that prevents the default. -/
theorem dispatch_heeds_click :
    let listeners : Registry := ⟨[(.cell 3 0, [⟨"click", ⟨2⟩, { capture := true }⟩,
      ⟨"click", ⟨3⟩, { capture := true }⟩, ⟨"click", ⟨4⟩, {}⟩]),
      (.root, [⟨"click", ⟨1⟩, { capture := true, once := true }⟩, ⟨"click", ⟨1⟩, {}⟩])]⟩
    let d : Document := { Document.new with listeners }
    let e : NativeEvent := { type := "click", target := .cell 3 0 }
    let invoke : Invoke Nat := fun _ id _ n =>
      ({ stopPropagation := id = ⟨2⟩, preventDefault := id = ⟨3⟩ }, n + 1)
    (d.store.Distinct ∧ d.listeners.nodes.Nodup ∧ d.store.Live e.target) ∧
      ∃ proceed w, dispatch (recording invoke) ⟨d, e, ([], 0)⟩ = .ok (proceed, w) ∧
        Heeds (agenda d e) w.caller.1 ∧ w.caller.1.map (·.handler) = [⟨1⟩, ⟨2⟩, ⟨3⟩] := by
  intro listeners d e invoke
  have hstore : d.store.refs.Nodup := by decide +kernel
  have hlisteners : d.listeners.nodes.Nodup := by decide +kernel
  have htarget : d.store.Live e.target := Store.get?_isSome_iff.mp (by decide +kernel)
  obtain ⟨proceed, w, hw, -, hheeds, -⟩ :=
    dispatch_heeds invoke (d := d) (e := e) 0 hstore hlisteners htarget rfl rfl
  have hcalled : (dispatch (recording invoke) ⟨d, e, ([], 0)⟩).toOption.map
      (fun r => r.2.caller.1.map (·.handler)) = some [⟨1⟩, ⟨2⟩, ⟨3⟩] := by decide +kernel
  rw [hw] at hcalled
  exact ⟨⟨hstore, hlisteners, htarget⟩, proceed, w, hw, hheeds, Option.some.inj hcalled⟩

end Document

end DomHost
