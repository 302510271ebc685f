import DomHost.Host.Run
import DomHost.Proofs.Dispatch
import DomHost.Proofs.Host.Delegation

/-!
# Calls keep scenes sound

Everything that happens to a host is one of a few calls. After each of them the scene is sound, whether
the call succeeds or fails, unless a node in a template is handed over to get an id.

* `Host.Call`, `Host.Call.run`: the calls and what they do;
* `Host.Call.apply`: a host after a call;
* `Host.Permits`: calls that hand over no node in a template;
* `Host.ends_setNode`, **`Host.ends_applyEdits`**, **`Host.ends_dispatch`**: single calls;
* **`Host.isSound_foldl_apply`**: any number of calls.
-/

namespace DomHost.Host

/-- A call on a host. -/
inductive Call where
  | start (root : NodeRef) (elements : List (NodeId × String))
  | createNode (id : NodeId)
  | setNode (id : NodeId) (r : NodeRef)
  | saveTemplate (number : UInt32) (descriptors : List Descriptor)
  | updateMemory (buffer : SharedBuffer)
  /-- The shared buffer is written to or grows. -/
  | changeMemory (buffer : SharedBuffer)
  | applyEdits (offset len : Nat)
  | takeLastError
  | registerCallback (id : CallbackId) (closure : Reaction)
  | disposeCallback (id : CallbackId)
  | setTimeout (delay : Instant)
  | setInterval (period : Instant)
  | clearTimer (token : TimerToken)
  | runTimers (now : Instant)
  | dispatch (compute : Reaction) (event : NativeEvent)

namespace Call

/-- What a call does. Its result is left out. -/
def run : Call → HostM Unit
  | start root elements => Host.start root elements
  | createNode id => discard (Host.createNode id)
  | setNode id r => Host.setNode id r
  | saveTemplate number descriptors => Host.saveTemplate number descriptors
  | updateMemory buffer => Host.updateMemory buffer
  | changeMemory buffer => modify fun h => { h with memory := { h.memory with buffer } }
  | applyEdits offset len => discard (Host.applyEdits offset len)
  | takeLastError => discard Host.takeLastError
  | registerCallback id closure => Host.registerCallback id closure
  | disposeCallback id => discard (Host.disposeCallback id)
  | setTimeout delay => discard (Host.setTimeout delay)
  | setInterval period => discard (Host.setInterval period)
  | clearTimer token => discard (Host.clearTimer token)
  | runTimers now => discard (Host.runTimers now)
  | dispatch compute event => discard (Host.dispatch compute event)

/-- A host after a call, whether it succeeds or fails. -/
def apply (h : Host) (c : Call) : Host :=
  match c.run h with
  | .ok _ h => h
  | .error _ h => h

/-- The node that a call hands over to get an id. -/
def node? : Call → Option NodeRef
  | start root _ => some root
  | setNode _ r => some r
  | _ => none

/-- Is the node that a call hands over in none of the templates? -/
def Permitted (h : Host) (c : Call) : Prop := ∀ r ∈ c.node?, h.scene.OutsideTemplates r

instance (h : Host) (c : Call) : Decidable (c.Permitted h) :=
  inferInstanceAs (Decidable (∀ r ∈ c.node?, h.scene.OutsideTemplates r))

end Call

/-- Are the nodes that calls hand over, made one after another, in none of the templates? -/
def Permits (h : Host) : List Call → Prop
  | [] => True
  | c :: rest => c.Permitted h ∧ Permits (c.apply h) rest

instance decidablePermits (h : Host) : (calls : List Call) → Decidable (h.Permits calls)
  | [] => inferInstanceAs (Decidable True)
  | c :: rest =>
    have := decidablePermits (c.apply h) rest
    inferInstanceAs (Decidable (c.Permitted h ∧ Permits (c.apply h) rest))

variable {closed : Prop} {h : Host} {ts : List (Node × Forest Node)}

/-! ## Nodes and templates -/

theorem ends_createNode (hs : h.scene.Sound closed ts) (id : NodeId) :
    Ends (createNode id) h (fun _ h => h.scene.Sound closed ts) fun h => h.scene.Sound closed ts := by
  unfold createNode
  refine (ends_onScene (hs.onStore_new fun _ _ hg => hg.create rfl)).bind fun r h hp => ?_
  have htie : Ends (onScene (Scene.tie id r)) h (fun _ h => h.scene.Sound closed ts)
      fun h => h.scene.Sound closed ts := ends_onScene (Ends.modify (hp.1.tie id hp.2.1 hp.2.2))
  exact htie.bind fun _ _ hs => Ends.pure hs

/-- An id may be tied to a node outside the templates. -/
theorem ends_setNode (hs : h.scene.Sound closed ts) (id : NodeId) {r : NodeRef} (hr : r ∉ Store.refsOf ts) :
    Ends (setNode id r) h (fun _ h => h.scene.Sound closed ts) fun h => h.scene.Sound closed ts := by
  unfold setNode
  refine (ends_onScene (Scene.ends_require hs hr)).discard.bind ?_
  rintro _ h ⟨_, hp⟩
  exact ends_onScene (Ends.modify (hp.sound.tie id hp.live hp.outside))

/-! ## Instructions -/

theorem ends_reportReleased (hs : h.scene.Sound closed ts) {E : Host → Prop} :
    Ends reportReleased h (fun _ h => h.scene.Sound closed ts) E :=
  Ends.modify (hs.withCallbacks fun hclosed => (hs.counted hclosed).callbacks.takeReleased)

theorem ends_attempt {α : Type} {x : HostM α} {P E : Host → Prop} (hx : Ends x h (fun _ => P) P) :
    Ends (attempt x) h (fun _ => P) E := by
  unfold Ends at hx
  unfold Ends attempt
  cases hxh : x h with
  | ok a h' =>
    rw [hxh] at hx
    exact hx
  | error e h' =>
    rw [hxh] at hx
    exact hx

/-- **Whatever bytes the buffer holds, carrying them out keeps the scene sound.** -/
theorem ends_applyEdits (hs : h.scene.IsSound closed) (offset len : Nat) :
    Ends (applyEdits offset len) h (fun _ h => h.scene.IsSound closed) fun h => h.scene.IsSound closed := by
  unfold applyEdits
  refine Ends.get_bind ?_
  have hlook : (h.look (Cursor.new h.memory.buffer offset len)).scene.IsSound closed := by
    unfold look
    split
    · exact hs
    · exact hs
  refine (Ends.modify (Q := fun _ h => h.scene.IsSound closed) hlook).bind fun _ h hs => ?_
  refine (ends_attempt (P := fun h => h.scene.IsSound closed)
    (ends_onScene (Scene.ends_run _ hs))).bind fun result h hs => ?_
  obtain ⟨ts, hs⟩ := hs
  refine (ends_reportReleased hs (E := fun h => h.scene.IsSound closed)).bind fun _ h hs => ?_
  cases result with
  | ok n => exact Ends.pure ⟨ts, hs⟩
  | error e =>
    exact (Ends.modify (Q := fun _ h => h.scene.IsSound closed) ⟨ts, hs⟩).bind fun _ _ hs => Ends.throw hs

/-! ## Closures -/

theorem ends_withCallbacks {α : Type}
    {f : CallbackTable Reaction → Except CallbackError (α × CallbackTable Reaction)}
    (hs : h.scene.Sound closed ts)
    (hf : ∀ t n a t', CallbackTable.Tallies t n → f t = .ok (a, t') → t'.Tallies n) :
    Ends (withCallbacks f) h (fun _ h => h.scene.Sound closed ts) fun h => h.scene.Sound closed ts := by
  unfold withCallbacks
  refine Ends.get_bind ?_
  split
  · rename_i a t ht
    refine (Ends.modify (Q := fun _ h => h.scene.Sound closed ts) ?_).bind fun _ _ hs => Ends.pure hs
    exact hs.withCallbacks fun hclosed => hf _ _ a t (hs.counted hclosed).callbacks ht
  · exact Ends.throw hs

theorem ends_registerCallback (hs : h.scene.Sound closed ts) (id : CallbackId) (closure : Reaction) :
    Ends (registerCallback id closure) h (fun _ h => h.scene.Sound closed ts) fun h => h.scene.Sound closed ts := by
  refine ends_withCallbacks hs fun t n a t' ht hr => ?_
  cases he : t.register id closure with
  | error e =>
    rw [he] at hr
    cases hr
  | ok t₁ =>
    rw [he] at hr
    obtain ⟨-, rfl⟩ := Prod.mk.inj (Except.ok.inj hr)
    exact ht.register he

theorem ends_disposeCallback (hs : h.scene.Sound closed ts) (id : CallbackId) :
    Ends (disposeCallback id) h (fun _ h => h.scene.Sound closed ts) fun h => h.scene.Sound closed ts := by
  unfold disposeCallback
  refine (ends_withCallbacks hs fun t n a t' ht hd => ht.dispose hd).bind fun released h hs => ?_
  exact (ends_reportReleased hs).bind fun _ _ hs => Ends.pure hs

/-! ## Events -/

/-- Delivering an event leaves a scene as it is in which every listener is one that a scene adds. -/
theorem dispatch_closed (ho : ∀ l ∈ h.document.listeners.installed, Scene.Ours l) {compute : Reaction}
    {event : NativeEvent} {proceed : Bool} {v : Document.Delivery (List Notice)}
    (hv : Document.dispatch (react compute h.scene) ⟨h.document, event, []⟩ = .ok (proceed, v)) :
    { h.scene with document := v.document } = h.scene := by
  have hcalm : Document.Calm (react compute h.scene) h.document fun _ _ => True :=
    ⟨fun l hl => (ho l hl).1, fun _ _ _ _ _ => trivial, fun _ _ _ _ _ _ => trivial⟩
  rw [(Document.dispatch_keeps hcalm trivial hv).1]
  rfl

/-- **Delivering an event keeps the scene sound.** -/
theorem ends_dispatch (hs : h.scene.Sound closed ts) (compute : Reaction) (event : NativeEvent) :
    Ends (dispatch compute event) h (fun _ h => h.scene.Sound closed ts) fun h => h.scene.Sound closed ts := by
  unfold dispatch
  refine Ends.get_bind ?_
  split
  · rename_i proceed v hv
    by_cases hclosed : closed
    · have hscene := dispatch_closed (hs.counted hclosed).ours hv
      have hs' : Scene.Sound closed ts { h.scene with document := v.document } := hscene.symm ▸ hs
      exact hs'
    · -- the listeners that are left are some of those that were there
      have hleft := Document.dispatch_document (P := fun d =>
        Scene.Sound closed ts { h.scene with document := d }) (fun d r type handler capture hd => ?_) hv hs
      · exact hleft
      · exact hd.withListeners (hd.listeners.remove r type handler capture)
          (fun x hx => hd.listening (Registry.nodes_remove_subset _ r type handler capture hx))
          fun hc => absurd hc hclosed
  · exact Ends.throw hs

/-! ## All calls -/

/-- A call other than a pass keeps the trees of all templates that stay. -/
theorem Call.ends_run_apart (hs : h.scene.Sound closed ts) {c : Call} (hc : c.Permitted h)
    (hpass : ∀ offset len, c ≠ .applyEdits offset len) :
    Ends c.run h (fun _ h' => Scene.Inherits closed ts h.scene h'.scene)
      fun h' => Scene.Inherits closed ts h.scene h'.scene := by
  by_cases ht : ∃ number ds, c = .saveTemplate number ds
  · obtain ⟨number, ds, rfl⟩ := ht
    exact ends_onScene (hs.saveTemplate number ds)
  have hdiscard : ∀ {α : Type} {x : HostM α},
      Ends x h (fun _ h => h.scene.Sound closed ts) (fun h => h.scene.Sound closed ts) →
        Ends (discard x) h (fun _ h => h.scene.Sound closed ts) fun h => h.scene.Sound closed ts :=
    fun hx => hx.discard.mono (fun _ _ ⟨_, hs⟩ => hs) fun _ hs => hs
  suffices hr : Ends c.run h (fun _ h' => h'.scene.Sound closed ts) (fun h' => h'.scene.Sound closed ts) from
    hr.mono (fun _ _ hs => .refl hs) fun _ hs => .refl hs
  cases c with
  | start root elements => exact ends_start hs (hs.notMem_refsOf (hc _ rfl)) elements
  | createNode id => exact hdiscard (ends_createNode hs id)
  | setNode id r => exact ends_setNode hs id (hs.notMem_refsOf (hc _ rfl))
  | saveTemplate number ds => exact absurd ⟨number, ds, rfl⟩ ht
  | updateMemory buffer => exact Ends.modify hs
  | changeMemory buffer => exact Ends.modify hs
  | applyEdits offset len => exact absurd rfl (hpass offset len)
  | takeLastError => exact hdiscard (Ends.modifyGet hs)
  | registerCallback id closure => exact ends_registerCallback hs id closure
  | disposeCallback id => exact hdiscard (ends_disposeCallback hs id)
  | setTimeout delay => exact hdiscard (Ends.modifyGet hs)
  | setInterval period => exact hdiscard (Ends.modifyGet hs)
  | clearTimer token => exact hdiscard (Ends.modifyGet hs)
  | runTimers now =>
    refine hdiscard ?_
    have htimers : Ends (withTimers (·.advance now)) h (fun _ h => h.scene.Sound closed ts)
        fun h => h.scene.Sound closed ts := Ends.modifyGet hs
    refine htimers.bind fun due h hs => ?_
    exact (Ends.modify (Q := fun _ h => h.scene.Sound closed ts) hs).bind fun _ _ hs => Ends.pure hs
  | dispatch compute event =>
    exact hdiscard (ends_dispatch hs compute event)

/-- **A call that hands over no node in a template keeps the scene sound.** -/
theorem Call.ends_run (hs : h.scene.IsSound closed) (c : Call) (hc : c.Permitted h) :
    Ends c.run h (fun _ h => h.scene.IsSound closed) fun h => h.scene.IsSound closed := by
  by_cases hpass : ∃ offset len, c = .applyEdits offset len
  · obtain ⟨offset, len, rfl⟩ := hpass
    exact (ends_applyEdits hs offset len).discard.mono (fun _ _ ⟨_, hs⟩ => hs) fun _ hs => hs
  · obtain ⟨ts, hs⟩ := hs
    have hrun := ends_run_apart hs hc fun offset len he => hpass ⟨offset, len, he⟩
    exact hrun.mono (fun _ _ hs => hs.isSound) fun _ hs => hs.isSound

/-- What holds of both ends of a call holds after it. -/
theorem Call.apply_of_ends {c : Call} {P : Host → Prop} (hx : Ends c.run h (fun _ => P) P) :
    P (c.apply h) := by
  unfold Ends at hx
  unfold apply
  split
  · rename_i he
    rw [he] at hx
    exact hx
  · rename_i he
    rw [he] at hx
    exact hx

theorem isSound_apply (hs : h.scene.IsSound closed) {c : Call} (hc : c.Permitted h) :
    (c.apply h).scene.IsSound closed := Call.apply_of_ends (c.ends_run hs hc)

/-- **Calls that hand over no node in a template keep the scene sound.** -/
theorem isSound_foldl_apply (hs : h.scene.IsSound closed) {calls : List Call} (hp : h.Permits calls) :
    (calls.foldl Call.apply h).scene.IsSound closed := by
  induction calls generalizing h with
  | nil => exact hs
  | cons c rest ih =>
    obtain ⟨hc, hrest⟩ := hp
    exact ih (isSound_apply hs hc) hrest

end DomHost.Host
