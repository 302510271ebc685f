import DomHost.Proofs.Host.Moments
import DomHost.Proofs.Host.Staffed

/-!
# Where events are caught

Between two starts of a host the listeners that catch events stay on the node that it was started at while
this node is live, unless a pass asks to remove the tree of the document.

* **`Host.Call.upholds_run`**: calls that take no listeners off a node that stays;
* `Host.Call.Respects`, `Host.Call.installs`: calls that leave listeners on a node, and that put them there;
* **`Host.Staffed.apply`**: what a call does to the listeners;
* `Host.Attended`: has the host been started at a node, which all calls have respected since?
* **`Host.staffed_foldl_apply`**: after any calls this is where the listeners are.
-/

namespace DomHost.Host

variable {h k : Host} {x : NodeRef} {p q : NodeRef → Prop} {c : Call} {calls : List Call}

/-! ## Calls -/

/-- Nothing is changed in the scene. -/
theorem Upholds.of_scene (hd : k.delegation = h.delegation) (hf : k.delegates = h.delegates)
    (hs : k.scene = h.scene) : Upholds Scene.SameDelegates h k :=
  ⟨hd, hf, fun hc => hs.symm ▸ ⟨hc, fun _ => rfl⟩⟩

theorem upholds_note {α : Type} {f : Host → α × Host} (hf : ∀ h, (f h).2.delegation = h.delegation ∧
    (f h).2.delegates = h.delegates ∧ (f h).2.scene = h.scene) :
    Keeps (Upholds Scene.SameDelegates) (modifyGet f : HostM α) :=
  fun h => Ends.modifyGet (.of_scene (hf h).1 (hf h).2.1 (hf h).2.2)

section

variable (hL : Lasting (Upholds Scene.SameDelegates))
include hL

theorem upholds_createNode (id : NodeId) : Keeps (Upholds Scene.SameDelegates) (createNode id) := by
  refine .bind hL (upholds_onScene (Scene.same_onStore_new fun _ _ hg => hg.create rfl)) fun r => ?_
  exact .bind hL (upholds_onScene (Scene.same_tie id r)) fun _ => .pure hL r

theorem upholds_setNode (id : NodeId) (r : NodeRef) : Keeps (Upholds Scene.SameDelegates) (setNode id r) := by
  have hrequire : Keeps (Upholds Scene.SameDelegates)
      (onScene (Scene.onDocument (Document.onStore (Store.require r)))) :=
    upholds_onScene (Scene.same_onStore fun _ st hg =>
      (Store.ends_require st r).mono (fun _ _ he => he.1 ▸ hg) fun _ he => he ▸ hg)
  exact .bind hL hrequire.discard fun _ => upholds_onScene (Scene.same_tie id r)

theorem upholds_withCallbacks {α : Type}
    (f : CallbackTable Reaction → Except CallbackError (α × CallbackTable Reaction)) :
    Keeps (Upholds Scene.SameDelegates) (withCallbacks f) := by
  refine Keeps.get_bind fun h => ?_
  split
  · refine .bind hL (.modify fun h => ?_) fun _ => .pure hL _
    exact ⟨rfl, rfl, fun hs => ⟨hs.withCallbacks _, fun _ => rfl⟩⟩
  · exact .throw hL _

theorem upholds_disposeCallback (id : CallbackId) :
    Keeps (Upholds Scene.SameDelegates) (disposeCallback id) := by
  refine .bind hL (upholds_withCallbacks hL _) fun released => ?_
  refine .bind hL (.modify fun h => ?_) fun _ => .pure hL released
  exact ⟨rfl, rfl, fun hs => ⟨hs.withCallbacks _, fun _ => rfl⟩⟩

theorem upholds_runTimers (now : Instant) : Keeps (Upholds Scene.SameDelegates) (runTimers now) := by
  refine .bind hL (upholds_note fun _ => ⟨rfl, rfl, rfl⟩) fun due => ?_
  exact .bind hL (.modify fun _ => .of_scene rfl rfl rfl) fun _ => .pure hL _

/-- An event leaves listeners as they are. -/
theorem upholds_dispatch (compute : Reaction) (event : NativeEvent) :
    Keeps (Upholds Scene.SameDelegates) (dispatch compute event) := by
  intro h
  refine Ends.get_bind ?_
  split
  · rename_i proceed v hv
    have hscene : Upholds Scene.SameDelegates h
        { h with scene := { h.scene with document := v.document }, notices := h.notices ++ v.caller } := by
      refine ⟨rfl, rfl, fun hs => ?_⟩
      change Scene.Coherent { h.scene with document := v.document } ∧ _
      rw [dispatch_closed hs.ours hv]
      exact ⟨hs, fun _ => rfl⟩
    exact hscene
  · exact Ends.throw (hL.refl h)

end

/-- **A call that is no start and no pass takes no listeners off a node that stays.** -/
theorem Call.upholds_run (c : Call) (hstart : ∀ root elements, c ≠ .start root elements)
    (hpass : ∀ offset len, c ≠ .applyEdits offset len) : Keeps (Upholds Scene.Attends) c.run := by
  by_cases ht : ∃ number ds, c = .saveTemplate number ds
  · obtain ⟨number, ds, rfl⟩ := ht
    exact upholds_onScene (Scene.attends_saveTemplate number ds)
  suffices hsame : Keeps (Upholds Scene.SameDelegates) c.run from
    hsame.mono fun h k hk =>
      ⟨hk.delegation, hk.delegates, Scene.Coherently.mono (fun _ _ h x _ => h x) _ _ hk.scene⟩
  have hL := lasting_upholds Scene.lasting_same
  cases c with
  | start root elements => exact absurd rfl (hstart root elements)
  | createNode id => exact (upholds_createNode hL id).discard
  | setNode id r => exact upholds_setNode hL id r
  | saveTemplate number ds => exact absurd ⟨number, ds, rfl⟩ ht
  | updateMemory buffer => exact .modify fun _ => .of_scene rfl rfl rfl
  | changeMemory buffer => exact .modify fun _ => .of_scene rfl rfl rfl
  | applyEdits offset len => exact absurd rfl (hpass offset len)
  | takeLastError => exact (upholds_note fun _ => ⟨rfl, rfl, rfl⟩).discard
  | registerCallback id closure =>
    exact upholds_withCallbacks hL fun t => (t.register id closure).map fun t => ((), t)
  | disposeCallback id => exact (upholds_disposeCallback hL id).discard
  | setTimeout delay => exact (upholds_note fun _ => ⟨rfl, rfl, rfl⟩).discard
  | setInterval period => exact (upholds_note fun _ => ⟨rfl, rfl, rfl⟩).discard
  | clearTimer token => exact (upholds_note fun _ => ⟨rfl, rfl, rfl⟩).discard
  | runTimers now => exact (upholds_runTimers hL now).discard
  | dispatch compute event => exact (upholds_dispatch hL compute event).discard

/-- Does the call take no listeners off a node, which is live behind it? -/
def Call.Respects (h : Host) (x : NodeRef) (c : Call) : Prop :=
  (match c with
    | applyEdits offset len => h.scene.Respects x (Cursor.new h.memory.buffer offset len).decoded.1
    | _ => True) ∧ (c.apply h).scene.store.Live x

instance (h : Host) (x : NodeRef) (c : Call) : Decidable (c.Respects h x) := by
  unfold Call.Respects
  split <;> infer_instance

/-- Does the call succeed in starting the host at a node where events are to be caught? -/
def Call.installs (h : Host) (x : NodeRef) : Call → Bool
  | start root elements => decide (root = x) && h.delegates &&
    match Host.start root elements h with
    | .ok _ _ => true
    | .error _ _ => false
  | _ => false

theorem Staffed.apply_start (hp : h.Staffed p) (root : NodeRef) (elements : List (NodeId × String)) :
    ((Call.start root elements).apply h).Staffed fun x => (Call.start root elements).installs h x = true ∨
      (p x ∧ (Call.start root elements).Respects h x) := by
  set c : Call := .start root elements
  have hstart := hp.ends_start root elements
  -- without new listeners it matters only whether the node is still live
  have hstay : (∀ x, c.installs h x = false) → (c.apply h).Staffed p →
      (c.apply h).Staffed fun x => c.installs h x = true ∨ (p x ∧ c.Respects h x) := fun hn hk =>
    hk.live.congr fun x _ => by simp [hn, Call.Respects, c]
  unfold Ends at hstart
  cases hk : Host.start root elements h with
  | ok _ k =>
    rw [hk] at hstart
    have happly : c.apply h = k := by rw [Call.apply, Call.run, hk]
    by_cases hd : h.delegates = true
    · simp only [hd, if_true] at hstart
      rw [happly]
      refine hstart.2.congr fun x hx => iff_of_true trivial (Or.inl ?_)
      obtain rfl := Option.some.inj (hstart.1.symm.trans hx)
      simp [Call.installs, c, hd, hk]
    · simp only [hd] at hstart
      exact hstay (fun x => by simp [Call.installs, c, hd]) (happly ▸ hstart)
  | error e k =>
    rw [hk] at hstart
    have happly : c.apply h = k := by rw [Call.apply, Call.run, hk]
    exact hstay (fun x => by simp [Call.installs, c, hk]) (happly ▸ hstart)

theorem Staffed.of_keepsIf (hp : h.Staffed p) (hd : k.delegation = h.delegation) (hk : k.scene.Coherent)
    (hkeeps : ∀ x, Scene.KeepsIf (q x) x h.scene k.scene) : k.Staffed fun x => p x ∧ q x where
  coherent := hk
  staff x hx hpq := ((hkeeps x).1 hpq.2).trans (hp.staff x (hd ▸ hx) hpq.1)
  nil x hn := by
    by_cases hq : q x
    · exact ((hkeeps x).1 hq).trans (hp.nil x fun hx hpx => hn (hd ▸ hx) ⟨hpx, hq⟩)
    · exact (hkeeps x).2 hq

theorem delegation_applyEdits (h : Host) (offset len : Nat) :
    ((Call.applyEdits offset len).apply h).delegation = h.delegation := by
  have hlook : (h.look (Cursor.new h.memory.buffer offset len)).delegation = h.delegation := by
    unfold look
    split <;> rfl
  have hpass : Ends (applyEdits offset len) h (fun _ k => k.delegation = h.delegation)
      fun k => k.delegation = h.delegation := by
    rw [applyEdits_eq_applyBatch]
    unfold Ends applyBatch
    simp only
    cases Scene.carryOut (Cursor.new h.memory.buffer offset len).decoded h.scene with
    | ok n s => exact hlook
    | error e s => exact hlook
  have hrun : Ends (Call.applyEdits offset len).run h (fun _ k => k.delegation = h.delegation)
      fun k => k.delegation = h.delegation := hpass.discard.mono (fun _ _ ⟨_, hk⟩ => hk) fun _ hk => hk
  exact Call.apply_of_ends hrun

theorem Staffed.apply_applyEdits (hp : h.Staffed p) (offset len : Nat) :
    ((Call.applyEdits offset len).apply h).Staffed fun x =>
      p x ∧ (Call.applyEdits offset len).Respects h x := by
  let is := (Cursor.new h.memory.buffer offset len).decoded.1
  obtain ⟨last, hlast⟩ : ∃ last, (h.scene :: h.scene.along is).getLast (List.cons_ne_nil _ _) = last :=
    ⟨_, rfl⟩
  have hscene : ((Call.applyEdits offset len).apply h).scene = reported last :=
    hlast ▸ scene_apply_applyEdits h offset len
  have hend : ∀ x, last.Coherent ∧ Scene.KeepsIf (h.scene.Respects x is) x h.scene last := fun x => by
    have hboth := ((Scene.ends_forM_execute h.scene is).and (Scene.keepsIf_forM_execute x is h.scene)).mono
      (fun _ t ht => (ht.1.trans hlast) ▸ ht.2 hp.coherent) fun t ht => (ht.1.trans hlast) ▸ ht.2 hp.coherent
    unfold Ends at hboth
    split at hboth <;> exact hboth
  have hall := hp.of_keepsIf (k := (Call.applyEdits offset len).apply h)
    (q := fun x => h.scene.Respects x is) (delegation_applyEdits h offset len)
    (hscene ▸ (hend .root).1.withCallbacks _) fun x => hscene ▸ (hend x).2
  exact hall.live.congr fun x _ => and_assoc

/-- **What a call does to the listeners that catch events.** -/
theorem Staffed.apply (hp : h.Staffed p) (c : Call) :
    (c.apply h).Staffed fun x => c.installs h x = true ∨ (p x ∧ c.Respects h x) := by
  by_cases hstart : ∃ root elements, c = .start root elements
  · obtain ⟨root, elements, rfl⟩ := hstart
    exact hp.apply_start root elements
  by_cases hpass : ∃ offset len, c = .applyEdits offset len
  · obtain ⟨offset, len, rfl⟩ := hpass
    exact (hp.apply_applyEdits offset len).congr fun x _ => by simp [Call.installs]
  have hrun := c.upholds_run (fun root elements he => hstart ⟨root, elements, he⟩)
    (fun offset len he => hpass ⟨offset, len, he⟩) h
  have hk : Upholds Scene.Attends h (c.apply h) := Call.apply_of_ends hrun
  obtain ⟨hcoherent, hattends⟩ := hk.scene hp.coherent
  have hall := hp.of_keepsIf (q := (c.apply h).scene.store.Live) hk.delegation hcoherent fun x =>
    ⟨hattends x, hcoherent.delegates_eq_nil⟩
  refine hall.congr fun x _ => ?_
  have hinstalls : c.installs h x = false := by
    cases c with
    | start root elements => exact absurd ⟨root, elements, rfl⟩ hstart
    | _ => rfl
  have hrespects : c.Respects h x ↔ (c.apply h).scene.store.Live x := by
    cases c with
    | applyEdits offset len => exact absurd ⟨offset, len, rfl⟩ hpass
    | _ => exact and_iff_right trivial
  rw [hinstalls, hrespects]
  simp

/-! ## All calls -/

/-- Do calls, made one after another, take no listeners off a node, which is live behind each of them? -/
def Respects (h : Host) (x : NodeRef) : List Call → Prop
  | [] => True
  | c :: rest => c.Respects h x ∧ Respects (c.apply h) x rest

/-- Has the host been started at a node, which all calls have respected since? -/
def Attended (h : Host) (x : NodeRef) : List Call → Prop
  | [] => False
  | c :: rest => (c.installs h x = true ∧ (c.apply h).Respects x rest) ∨ Attended (c.apply h) x rest

instance decidableRespects (h : Host) (x : NodeRef) : (calls : List Call) → Decidable (h.Respects x calls)
  | [] => inferInstanceAs (Decidable True)
  | c :: rest =>
    have := decidableRespects (c.apply h) x rest
    inferInstanceAs (Decidable (c.Respects h x ∧ Respects (c.apply h) x rest))

instance decidableAttended (h : Host) (x : NodeRef) : (calls : List Call) → Decidable (h.Attended x calls)
  | [] => inferInstanceAs (Decidable False)
  | c :: rest =>
    have := decidableAttended (c.apply h) x rest
    inferInstanceAs (Decidable (_ ∨ _))

theorem respects_concat :
    h.Respects x (calls ++ [c]) ↔ h.Respects x calls ∧ c.Respects (calls.foldl Call.apply h) x := by
  induction calls generalizing h with
  | nil => exact and_comm
  | cons d rest ih => rw [List.cons_append, Respects, Respects, ih, and_assoc, List.foldl_cons]

theorem attended_concat : h.Attended x (calls ++ [c]) ↔
    c.installs (calls.foldl Call.apply h) x = true ∨
      (h.Attended x calls ∧ c.Respects (calls.foldl Call.apply h) x) := by
  induction calls generalizing h with
  | nil => simp [Attended, Respects]
  | cons d rest ih =>
    rw [List.cons_append, Attended, Attended, ih, respects_concat, List.foldl_cons]
    tauto

/-- **After any calls on a host of a document without listeners, those that catch events are on the node it
was started at last, if all calls have respected that node since, and else there are none.** -/
theorem staffed_foldl_apply {d : Document} (hd : d.store.WellFormed) (hl : d.listeners = {})
    (buffer : SharedBuffer) (delegates : Bool) (calls : List Call) :
    (calls.foldl Call.apply (opened d buffer delegates)).Staffed
      fun x => (opened d buffer delegates).Attended x calls := by
  induction calls using List.reverseRecOn with
  | nil =>
    refine ⟨Scene.coherent_of_over ⟨hl, hd⟩, fun _ hx => absurd hx (by simp [opened, new]), fun x _ => ?_⟩
    exact Registry.delegates_eq_nil (by simp [opened, new, hl, Registry.nodes])
  | append_singleton calls c ih =>
    rw [List.foldl_append]
    exact (ih.apply c).congr fun x _ => attended_concat.symm

end DomHost.Host
