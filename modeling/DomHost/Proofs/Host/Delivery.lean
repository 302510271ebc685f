import DomHost.Proofs.Dispatch.Due
import DomHost.Proofs.Host.Attended
import DomHost.Proofs.Scene.Loose

/-!
# Events reach the compute module once

Where events are caught, the compute module is told of an event for the nearest node at or above its target
that has an id, unless a closure has stopped the event before. It is told once, and nowhere else.

* `Host.Call.heard`, `Host.Call.asked`: the events that the compute module is told of, and what closures
  ask for;
* `Host.Tells`, `Host.exists_tells`: what is told when listeners are called;
* `Host.heard_dispatch`, `Host.heard_dispatch_eq_nil`: an event, when the listeners are where they should be;
* `Host.Delivers`: an event, seen from the node that the host was started at;
* **`Host.delivers_foldl_apply`**: an event after any calls;
* **`Host.exists_lost`**: a node that stays but has lost its listeners.
-/

namespace DomHost

/-! ## What the compute module is told -/

namespace NativeEvent

/-- The event is the same, apart from where it is and what was asked for. -/
structure Same (e e' : NativeEvent) : Prop where
  type : e'.type = e.type
  target : e'.target = e.target
  bubbles : e'.bubbles = e.bubbles
  detail : e'.detail = e.detail

theorem Same.moved {e e' : NativeEvent} (h : e.Same e') (phase : EventPhase) (node : NodeRef) :
    e.Same { e' with phase, currentTarget := node } := ⟨h.type, h.target, h.bubbles, h.detail⟩

theorem Same.obey {e e' : NativeEvent} (h : e.Same e') (c : EventControl) : e.Same (e'.obey c) :=
  ⟨h.type, h.target, h.bubbles, h.detail⟩

theorem Same.ofEvent {e e' : NativeEvent} (h : e.Same e') (d : Document) (id : NodeId) :
    EventRecord.ofEvent d e' id = EventRecord.ofEvent d e id := by
  obtain ⟨ht, hg, hb, hd⟩ := h
  have hdata : ∀ c, EventData.ofEvent d e' c = EventData.ofEvent d e c := fun c => by
    cases c with
    | none => rfl
    | some c => cases c <;> simp only [EventData.ofEvent, hd, hg]
  rw [EventRecord.ofEvent, EventRecord.ofEvent, hdata, ht, hb]

end NativeEvent

namespace Host

variable {h : Host} {compute : Reaction} {e : NativeEvent} {s : NodeRef}

/-- The record of an event that the compute module is told of. -/
def heard? : Notice → Option EventRecord
  | .event record _ => some record
  | _ => none

/-- What a closure asks for when it is told of an event. -/
def asked? : Notice → Option EventControl
  | .callback _ _ control => some control
  | _ => none

/-- The events that the compute module is told of in a call, in order. -/
def Call.heard (h : Host) (c : Call) : List EventRecord :=
  ((c.apply h).notices.drop h.notices.length).filterMap heard?

/-- What closures ask for in a call, in order. -/
def Call.asked (h : Host) (c : Call) : List EventControl :=
  ((c.apply h).notices.drop h.notices.length).filterMap asked?

/-- What is told of an event; nothing if its target is not live. -/
theorem drop_notices_dispatch (h : Host) (compute : Reaction) (e : NativeEvent) :
    ((Call.dispatch compute e).apply h).notices.drop h.notices.length =
      match Document.dispatch (react compute h.scene) ⟨h.document, e, []⟩ with
      | .ok r => r.2.caller
      | .error _ => [] := by
  have hget : (get : HostM Host) h = .ok h h := rfl
  cases hv : Document.dispatch (react compute h.scene) ⟨h.document, e, []⟩ with
  | ok r =>
    have hrun : Host.dispatch compute e h = .ok r.1 { h with
        scene := { h.scene with document := r.2.document }, notices := h.notices ++ r.2.caller } := by
      rw [Host.dispatch, bind_of_ok hget, hv]
      rfl
    rw [Call.apply, Call.run, discard_of_ok hrun]
    exact List.drop_left
  | error fault =>
    have hrun : Host.dispatch compute e h = .error (.document fault) h := by
      rw [Host.dispatch, bind_of_ok hget, hv]
      rfl
    rw [Call.apply, Call.run, discard_of_error hrun]
    exact List.drop_length

theorem react_delegate (compute : Reaction) (s : Scene Reaction) (d : Document) (e : NativeEvent)
    (told : List Notice) : react compute s d delegateHandler e told =
      match d.boundTarget? s.bindings e.target with
      | none => ({}, told)
      | some id => (compute (.ofEvent d e id),
          told ++ [.event (.ofEvent d e id) (compute (.ofEvent d e id))]) := by
  unfold react
  rw [Handler.ofId_delegateHandler]
  rfl

/-- A closure is passed over, or told of an event. -/
theorem react_callback (compute : Reaction) (s : Scene Reaction) (d : Document) (c : CallbackId)
    (e : NativeEvent) (told : List Notice) :
    react compute s d c.handler e told = ({}, told) ∨ ∃ record control,
      react compute s d c.handler e told = (control, told ++ [.callback c record control]) := by
  unfold react
  rw [Handler.ofId_handler]
  simp only
  split
  · exact .inl rfl
  · split
    · exact .inr ⟨_, _, rfl⟩
    · exact .inl rfl

/-- What is told goes with the calls that are made: whenever a listener that catches events is called, the
compute module is told of the same record or not at all, and whoever else stops the event is a closure that is
told of it. -/
structure Tells (record : Option EventRecord) (made : List Document.Made) (told : List Notice) : Prop where
  heard : told.filterMap heard? = (made.filter (·.delegated)).filterMap fun _ => record
  asked : ∀ c ∈ made, c.stops = true → c.delegated = true ∨ c.control ∈ told.filterMap asked?

namespace Tells

variable {record : Option EventRecord} {made made' : List Document.Made} {told told' : List Notice}

theorem nil (record : Option EventRecord) : Tells record [] [] := ⟨rfl, by simp⟩

theorem append (h : Tells record made told) (h' : Tells record made' told') :
    Tells record (made ++ made') (told ++ told') where
  heard := by rw [List.filterMap_append, List.filter_append, List.filterMap_append, h.heard, h'.heard]
  asked c hc hs := by
    rw [List.filterMap_append, List.mem_append]
    rcases List.mem_append.mp hc with hc | hc
    · exact (h.asked c hc hs).imp_right Or.inl
    · exact (h'.asked c hc hs).imp_right Or.inr

/-- A call that tells nobody stops nothing. -/
theorem silent {t : Document.Turn} (hr : t.delegated = true → record = none) : Tells record [⟨t, {}⟩] [] where
  heard := by
    by_cases ht : t.delegated = true
    · simp [hr ht]
    · simp [ht]
  asked c hc hs := by
    rw [List.mem_singleton.mp hc] at hs
    exact absurd hs Bool.false_ne_true

theorem event {t : Document.Turn} {r : EventRecord} (ht : t.delegated = true) (control : EventControl) :
    Tells (some r) [⟨t, control⟩] [.event r control] where
  heard := by simp [ht, heard?]
  asked c hc _ := by
    rw [List.mem_singleton.mp hc]
    exact .inl ht

theorem callback {t : Document.Turn} (ht : t.delegated = false) (c : CallbackId) (r : EventRecord)
    (control : EventControl) : Tells record [⟨t, control⟩] [.callback c r control] where
  heard := by simp [ht, heard?]
  asked d hd _ := by
    rw [List.mem_singleton.mp hd]
    exact .inr (by simp [asked?])

end Tells

theorem exists_tells (compute : Reaction) (s : Scene Reaction) (d : Document) {e e' : NativeEvent}
    (hsame : e.Same e') {t : Document.Turn}
    (ht : t.handler = delegateHandler ∨ ∃ c : CallbackId, t.handler = c.handler) (told : List Notice) :
    ∃ control new, react compute s d t.handler e' told = (control, told ++ new) ∧
      Tells ((d.boundTarget? s.bindings e.target).map (.ofEvent d e)) [⟨t, control⟩] new := by
  by_cases hd : t.handler = delegateHandler
  · have hdelegated : t.delegated = true := beq_iff_eq.mpr hd
    rw [hd, react_delegate, hsame.target]
    cases hb : d.boundTarget? s.bindings e.target with
    | none => exact ⟨{}, [], by rw [List.append_nil], .silent fun _ => rfl⟩
    | some id => exact ⟨_, _, rfl, hsame.ofEvent d id ▸ .event hdelegated _⟩
  · have hdelegated : t.delegated = false := beq_eq_false_iff_ne.mpr hd
    obtain ⟨c, hcallback⟩ := ht.resolve_left hd
    rw [hcallback]
    rcases react_callback compute s d c e' told with hr | ⟨record, control, hr⟩
    · refine ⟨{}, [], by rw [hr, List.append_nil], .silent fun h => ?_⟩
      exact absurd (h.symm.trans hdelegated) (by decide)
    · exact ⟨control, _, hr, .callback hdelegated c record control⟩

/-! ## One event -/

section Dispatch

variable (hc : h.scene.Coherent)
include hc

/-- **The compute module is not told of an event for which no listener is due.** -/
theorem heard_dispatch_eq_nil (hn : ∀ x ∈ h.document.store.ancestors e.target,
    ∀ l ∈ h.scene.delegates x, l.type ≠ e.type) : (Call.dispatch compute e).heard h = [] := by
  have hcalm : Document.Calm (react compute h.scene) h.document fun e' told =>
      e.Same e' ∧ told.filterMap heard? = [] := by
    refine ⟨fun l hl => (hc.ours l hl).1, fun _ _ _ _ hp => ⟨hp.1.moved _ _, hp.2⟩, ?_⟩
    rintro e' told hat l hl ⟨hsame, htold⟩
    refine ⟨hsame.obey _, ?_⟩
    have hdelegate : l.handler ≠ delegateHandler := fun hd => by
      obtain ⟨hl, htype⟩ := List.mem_filter.mp hl
      refine hn e'.currentTarget (hsame.target ▸ hat) l (List.mem_filter.mpr ⟨hl, beq_iff_eq.mpr hd⟩) ?_
      rw [← hsame.type]
      exact beq_iff_eq.mp htype
    obtain ⟨c, hcallback⟩ := (hc.ours l (Document.mem_installed_of_listenersFor hl)).2.resolve_left hdelegate
    rw [hcallback]
    rcases react_callback compute h.scene h.document c e' told with hr | ⟨record, control, hr⟩
    · rw [hr]
      exact htold
    · rw [hr, List.filterMap_append, htold]
      rfl
  rw [Call.heard, drop_notices_dispatch]
  cases hv : Document.dispatch (react compute h.scene) ⟨h.document, e, []⟩ with
  | error fault => rfl
  | ok r => exact (Document.dispatch_keeps hcalm ⟨⟨rfl, rfl, rfl, rfl⟩, rfl⟩ hv).2.2

theorem calm_recording (e : NativeEvent) :
    Document.Calm (Document.recording (react compute h.scene)) h.document fun e' st => e.Same e' ∧
      Tells ((h.document.boundTarget? h.scene.bindings e.target).map (.ofEvent h.document e)) st.1 st.2 := by
  refine ⟨fun l hl => (hc.ours l hl).1, fun _ _ _ _ hp => ⟨hp.1.moved _ _, hp.2⟩, ?_⟩
  rintro e' ⟨made, told⟩ - l hl ⟨hsame, htells⟩
  refine ⟨hsame.obey _, ?_⟩
  obtain ⟨control, new, hreact, hnew⟩ := exists_tells compute h.scene h.document hsame
    (t := ⟨l.handler, e'.currentTarget, e'.phase⟩)
    (hc.ours l (Document.mem_installed_of_listenersFor hl)).2 told
  unfold Document.recording
  simp only at hreact
  rw [hreact]
  exact htells.append hnew

/-- The calls of an event that nothing has stopped yet, and what is told in them. -/
theorem exists_heeds_tells (compute : Reaction) (hlive : h.document.store.Live e.target)
    (hstop : e.propagationStopped = false) (hatOnce : e.immediateStopped = false) :
    ∃ made, Document.Heeds (Document.agenda h.document e) made ∧
      Tells ((h.document.boundTarget? h.scene.bindings e.target).map (.ofEvent h.document e)) made
        (((Call.dispatch compute e).apply h).notices.drop h.notices.length) := by
  obtain ⟨w, hrecording, hdispatch, hheeds, -⟩ := Document.exists_dispatch (react compute h.scene)
    (d := h.document) (e := e) [] hc.wellFormed.distinct hc.document.listeners.nodes hlive hstop hatOnce
  refine ⟨w.caller.1, hheeds, ?_⟩
  rw [drop_notices_dispatch, hdispatch]
  exact (Document.dispatch_keeps (calm_recording hc e) ⟨⟨rfl, rfl, rfl, rfl⟩, .nil _⟩ hrecording).2.2

variable (hs : ∀ x, h.scene.delegates x = if x = s then staff else [])
  (hlive : h.document.store.Live e.target) (hstop : e.propagationStopped = false)
  (hatOnce : e.immediateStopped = false)
include hs hlive hstop hatOnce

/-- The compute module is not told twice of an event, whoever stops it. -/
theorem length_heard_dispatch_le_one : ((Call.dispatch compute e).heard h).length ≤ 1 := by
  obtain ⟨made, hheeds, htells⟩ := exists_heeds_tells hc compute hlive hstop hatOnce
  have hdue := hheeds.countP_le.trans
    (Document.countP_agenda_le_one hs (hc.wellFormed.distinct.nodup_ancestors e.target))
  rw [Call.heard, htells.heard]
  refine (List.length_filterMap_le _ _).trans ?_
  rwa [← List.countP_eq_length_filter]

/-- **The compute module is told once of an event that no closure stops, for the nearest id.** -/
theorem heard_dispatch (htype : e.type ∈ delegatedNames)
    (hway : e.bubbles = true ∨ bubblesByName e.type = false)
    (hbelow : s ∈ h.document.store.ancestors e.target)
    (hasked : ∀ c ∈ (Call.dispatch compute e).asked h, c.stopPropagation = false ∧ c.stopImmediate = false) :
    (Call.dispatch compute e).heard h =
      ((h.document.boundTarget? h.scene.bindings e.target).map (EventRecord.ofEvent h.document e)).toList := by
  obtain ⟨made, hheeds, htells⟩ := exists_heeds_tells hc compute hlive hstop hatOnce
  have hdue := Document.countP_agenda_eq_one hs (hc.wellFormed.distinct.nodup_ancestors e.target)
    htype hway hbelow
  have hstops : ∀ c ∈ made, c.stops = true → c.delegated = true := fun c hm hs =>
    (htells.asked c hm hs).resolve_right fun hc => by
      obtain ⟨hprop, himm⟩ := hasked c.control hc
      rw [Document.Made.stops, hprop, himm] at hs
      exact absurd hs Bool.false_ne_true
  have hone := hheeds.countP_eq_one hdue hstops
  rw [List.countP_eq_length_filter] at hone
  obtain ⟨c, hc⟩ := List.length_eq_one_iff.mp hone
  rw [Call.heard, htells.heard, hc]
  cases (h.document.boundTarget? h.scene.bindings e.target).map (EventRecord.ofEvent h.document e) <;> rfl

end Dispatch

/-! ## All calls -/

/-- An event reaches the compute module once or not at all. -/
structure Delivers (h : Host) (s : NodeRef) (attended : Prop) (compute : Reaction) (e : NativeEvent) :
    Prop where
  /-- An event that nothing has stopped yet, at or below the node and not stopped by a closure, reaches the
  compute module for the nearest node with an id, if there is one. -/
  once : attended → e.type ∈ delegatedNames → (e.bubbles = true ∨ bubblesByName e.type = false) →
    e.propagationStopped = false → e.immediateStopped = false → s ∈ h.document.store.ancestors e.target →
    (∀ c ∈ (Call.dispatch compute e).asked h, c.stopPropagation = false ∧ c.stopImmediate = false) →
    (∀ above n below id, h.document.store.ancestors e.target = above ++ n :: below →
      (∀ x ∈ above, ¬ h.scene.Bound x) → h.scene.bindings.get? id = some n →
      (Call.dispatch compute e).heard h = [.ofEvent h.document e id]) ∧
    ((∀ x ∈ h.document.store.ancestors e.target, ¬ h.scene.Bound x) → (Call.dispatch compute e).heard h = [])
  /-- No event reaches it twice, whoever stops it. -/
  atMostOnce : e.propagationStopped = false → e.immediateStopped = false →
    ((Call.dispatch compute e).heard h).length ≤ 1
  /-- Events elsewhere and events of other names do not reach it. -/
  elsewhere : s ∉ h.document.store.ancestors e.target ∨ e.type ∉ delegatedNames →
    (Call.dispatch compute e).heard h = []
  /-- No event reaches it when the node has lost its listeners. -/
  lost : ¬ attended → (Call.dispatch compute e).heard h = []

theorem Staffed.delivers {p : NodeRef → Prop} (hp : h.Staffed p) (hscope : h.delegation.scope = some s)
    (compute : Reaction) (e : NativeEvent) : h.Delivers s (p s) compute e := by
  have hc := hp.coherent
  have hlost : ¬ p s → (Call.dispatch compute e).heard h = [] := fun hn =>
    heard_dispatch_eq_nil hc fun x _ l hl => by
      rw [hp.nil x fun hx hpx => hn (Option.some.inj (hscope.symm.trans hx) ▸ hpx)] at hl
      exact absurd hl List.not_mem_nil
  have hs : p s → ∀ x, h.scene.delegates x = if x = s then Host.staff else [] := fun hps x => by
    split_ifs with hx
    · exact hp.staff x (hx ▸ hscope) (hx ▸ hps)
    · exact hp.nil x fun hxs => absurd (Option.some.inj (hxs.symm.trans hscope)) hx
  have hbound : ∀ x id, h.scene.bindings.idOf? x = some id ↔ h.scene.bindings.get? id = some x :=
    fun x id => hc.bindings.get?_eq_some_iff_idOf?.symm
  have hfree : ∀ x, ¬ h.scene.Bound x → h.scene.bindings.idOf? x = none := fun x hx =>
    Option.eq_none_iff_forall_ne_some.mpr fun id hid => hx ⟨id, (hbound x id).mp hid⟩
  refine ⟨fun hps htype hway hstop hatOnce hbelow hasked => ?_, fun hstop hatOnce => ?_, fun he => ?_, hlost⟩
  · have hlive := Store.live_of_ancestors hbelow
    have hheard := heard_dispatch hc (hs hps) hlive hstop hatOnce htype hway hbelow hasked
    refine ⟨fun above n below id hpath habove hn => ?_, fun hnone => ?_⟩
    · have hid : h.document.boundTarget? h.scene.bindings e.target = some id :=
        List.findSome?_eq_some_iff.mpr
          ⟨above, n, below, hpath, (hbound n id).mpr hn, fun x hx => hfree x (habove x hx)⟩
      rw [hheard, hid]
      rfl
    · have hid : h.document.boundTarget? h.scene.bindings e.target = none :=
        List.findSome?_eq_none_iff.mpr fun x hx => hfree x (hnone x hx)
      rw [hheard, hid]
      rfl
  · by_cases hps : p s
    · by_cases hlive : h.document.store.Live e.target
      · exact length_heard_dispatch_le_one hc (hs hps) hlive hstop hatOnce
      · rw [heard_dispatch_eq_nil hc fun x hx => absurd (Store.live_of_ancestors hx) hlive]
        exact Nat.zero_le 1
    · rw [hlost hps]
      exact Nat.zero_le 1
  · by_cases hps : p s
    · refine heard_dispatch_eq_nil hc fun x hx l hl htype => ?_
      rw [hs hps] at hl
      split_ifs at hl with hxs
      · obtain ⟨name, hname, rfl⟩ := List.mem_map.mp hl
        rcases he with hpath | hnames
        · exact hpath (hxs ▸ hx)
        · exact hnames (htype ▸ hname)
      · exact absurd hl List.not_mem_nil
    · exact hlost hps

/-- **After any calls on a host of a document without listeners, an event reaches the compute module once, or
not at all if the node that the host was started at has lost its listeners since.** -/
theorem delivers_foldl_apply {d : Document} (hd : d.store.WellFormed) (hl : d.listeners = {})
    (buffer : SharedBuffer) (delegates : Bool) (calls : List Call)
    (hscope : (calls.foldl Call.apply (opened d buffer delegates)).delegation.scope = some s)
    (compute : Reaction) (e : NativeEvent) :
    (calls.foldl Call.apply (opened d buffer delegates)).Delivers s
      ((opened d buffer delegates).Attended s calls) compute e :=
  (staffed_foldl_apply hd hl buffer delegates calls).delivers hscope compute e

/-- A click on a text without an id, after the listeners have been moved. -/
theorem exists_delivers : ∃ (calls : List Call) (h : Host) (e : NativeEvent),
    calls.foldl Call.apply (opened .new (.new 1 1) true) = h ∧ h.delegation.scope = some (.cell 3 0) ∧
    (opened .new (.new 1 1) true).Attended (.cell 3 0) calls ∧ h.scene.bindings.get? ⟨1⟩ = some (.cell 4 0) ∧
    (Call.dispatch (fun _ => {}) e).heard h = [.ofEvent h.document e ⟨1⟩] := by
  let edits := Instruction.encodeAll [.createElement ⟨1⟩ "div" none, .createText ⟨2⟩ "x",
    .appendChildren ⟨1⟩ [⟨2⟩], .appendChildren .root [⟨1⟩], .freeId ⟨2⟩]
  let calls : List Call := [.start .root [], .start (.cell 3 0) [],
    .changeMemory { bytes := edits.toArray, maxPages := 1 }, .applyEdits 0 edits.length]
  let e : NativeEvent := { type := "click", target := .cell 5 0 }
  have hattended : (opened .new (.new 1 1) true).Attended (.cell 3 0) calls := by decide +kernel
  obtain ⟨h, hh, hscope, hid, hnodes, hpath, hasked⟩ : ∃ h,
      calls.foldl Call.apply (opened .new (.new 1 1) true) = h ∧ h.delegation.scope = some (.cell 3 0) ∧
      h.scene.bindings.get? ⟨1⟩ = some (.cell 4 0) ∧ .cell 5 0 ∉ h.scene.bindings.nodes ∧
      h.document.store.ancestors (.cell 5 0) = [.cell 5 0] ++ .cell 4 0 :: [.cell 3 0, .cell 1 0, .root] ∧
      (Call.dispatch (fun _ => {}) e).asked h = [] := ⟨_, rfl, by decide +kernel⟩
  refine ⟨calls, h, e, hh, hscope, hattended, hid, ?_⟩
  have hdelivers := delivers_foldl_apply Document.over_new.store rfl (.new 1 1) true calls
    (hh.symm ▸ hscope) (fun _ => {}) e
  rw [hh] at hdelivers
  refine (hdelivers.once hattended (by decide +kernel) (.inl rfl) rfl rfl ?_ ?_).1 _ _ _ _ hpath ?_ hid
  · rw [hpath]
    decide
  · rw [hasked]
    exact fun c hc => absurd hc List.not_mem_nil
  · rintro x hx ⟨id, hget⟩
    rw [List.mem_singleton.mp hx] at hget
    exact hnodes (Bindings.mem_nodes_of_get? hget)

/-- **A node that stays but has lost its listeners.** The document is asked to be removed, which it cannot be.
The host goes on with its listeners meant for it, but the compute module is not told of an event on it. -/
theorem exists_lost : ∃ (calls : List Call) (h : Host) (e : NativeEvent),
    calls.foldl Call.apply (opened .new (.new 1 1) true) = h ∧
    (h.delegation = ⟨some .root, delegatedNames.length⟩ ∧ h.document.store.Live .root) ∧
    (e.type ∈ delegatedNames ∧ e.bubbles = true ∧ e.propagationStopped = false ∧
      e.immediateStopped = false) ∧
    h.scene.bindings.get? ⟨1⟩ = some e.target ∧ .root ∈ h.document.store.ancestors e.target ∧
    (Call.dispatch (fun _ => {}) e).asked h = [] ∧
    (Call.dispatch (fun _ => {}) e).heard h ≠ [.ofEvent h.document e ⟨1⟩] := by
  let edits := Instruction.encodeAll [.remove .root]
  let calls : List Call := [.start .root [],
    .changeMemory { bytes := edits.toArray, maxPages := 1 }, .applyEdits 0 edits.length,
    .setNode ⟨1⟩ (.cell 3 0)]
  let e : NativeEvent := { type := "copy", target := .cell 3 0 }
  obtain ⟨h, hh, hscope, hid, hbelow, htold⟩ : ∃ h,
      calls.foldl Call.apply (opened .new (.new 1 1) true) = h ∧
      (h.delegation = ⟨some .root, delegatedNames.length⟩ ∧ h.document.store.Live .root) ∧
      h.scene.bindings.get? ⟨1⟩ = some (.cell 3 0) ∧ .root ∈ h.document.store.ancestors (.cell 3 0) ∧
      (Document.dispatch (react (fun _ => {}) h.scene) ⟨h.document, e, []⟩).toOption.map
        (·.2.caller.length) = some 0 := ⟨_, rfl, by decide +kernel⟩
  have hnotices : ((Call.dispatch (fun _ => {}) e).apply h).notices.drop h.notices.length = [] := by
    rw [drop_notices_dispatch]
    cases hv : Document.dispatch (react (fun _ => {}) h.scene) ⟨h.document, e, []⟩ with
    | error fault => rfl
    | ok r =>
      rw [hv] at htold
      exact List.length_eq_zero_iff.mp (Option.some.inj htold)
  refine ⟨calls, h, e, hh, hscope, ⟨by decide +kernel, rfl, rfl, rfl⟩, hid, hbelow, ?_, fun he => ?_⟩
  · rw [Call.asked, hnotices, List.filterMap_nil]
  · rw [Call.heard, hnotices, List.filterMap_nil] at he
    cases he

end Host

end DomHost
