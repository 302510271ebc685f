import DomHost.Proofs.Host.Loading
import DomHost.Proofs.Scene.Refusals

/-!
# An instruction that is refused changes nothing

In every run an instruction that is carried out in one step leaves the whole scene as it was when it is refused:
the nodes and their listeners, the ids, the templates and the closures. The one exception is the removal of the
document, which is refused only after its nodes have lost their ids and listeners.

* `Scene.Refused`: what a refused instruction leaves behind;
* **`Scene.Sound.cautious_execute`**, **`Scene.Sound.ends_remove_document`**: one instruction, and the exception;
* **`Host.refused_moments`**: the instructions of a run;
* `Host.exists_refused_changed`: a document that is not removed and has lost its id.
-/

namespace DomHost

namespace Scene

variable {κ : Type} {closed : Prop} {s : Scene κ} {ts : List (Node × Forest Node)} {id : NodeId}

/-- A refused instruction has left the scene as it was, unless it asks for the document to be removed: then all
nodes are still there, but those of the document have lost their ids. -/
structure Refused (i : Instruction) (s t : Scene κ) : Prop where
  eq_iff : t = s ↔ ∀ id, i = .remove id → s.bindings.get? id ≠ some .root
  store : t.store = s.store
  templates : t.templates = s.templates
  bindings : t ≠ s → s.bindings.Unbinds (.root ∈ s.store.ancestors ·) t.bindings

namespace Sound

/-- A copy of a described template is refused before it is made. -/
theorem cautious_instantiate (h : s.Sound closed ts) (hd : s.Described) (number : UInt32) (slots : List NodeId) :
    Cautious (Scene.instantiate number slots) s := by
  cases htm : s.templates.get? number with
  | none =>
    unfold Scene.instantiate
    refine Ends.get_bind ?_
    simp only [htm]
    exact Ends.throw rfl
  | some tm =>
    by_cases hlen : tm.slots.length = slots.length
    · exact (h.ends_instantiate_tied htm (hd number tm htm) hlen.symm).mono (fun _ _ _ => trivial)
        fun _ => False.elim
    · unfold Scene.instantiate
      refine Ends.get_bind ?_
      simp only [htm]
      exact Ends.ite (fun _ => Ends.throw_bind rfl) fun hn => absurd hlen hn

/-- **An instruction that is refused has changed nothing**, if it is carried out in one step and does not remove
the document. -/
theorem cautious_execute (h : s.Sound closed ts) (hd : s.Described) {i : Instruction} (hi : i.isStepwise = false)
    (hroot : ∀ id, i = .remove id → s.bindings.get? id ≠ some .root) : Cautious (Scene.execute i) s := by
  have hbound : ∀ {id r}, s.bindings.get? id = some r → s.store.Live r ∧ r ∉ Store.refsOf ts := fun hr =>
    ⟨h.live_of_bound ⟨_, hr⟩, h.notMem_of_get? hr⟩
  cases i with
  | createElement id tag ns =>
    exact cautious_bind (cautious_newElement s tag ns) (h.newElement tag ns) id
  | createText id text =>
    exact cautious_bind (cautious_onStore (Ends.modifyGet trivial)) (h.onStore_new fun _ _ hg => hg.create rfl) id
  | createPlaceholder id =>
    exact cautious_bind (cautious_onStore (Ends.modifyGet trivial)) (h.onStore_new fun _ _ hg => hg.create rfl) id
  | loadTemplate number id slots =>
    exact cautious_bind (h.cautious_instantiate hd number slots) (h.instantiate number slots) id
  | bindElementById id domId =>
    refine Ends.get_bind ?_
    split
    · rename_i r he
      obtain ⟨hl, hr⟩ := h.elementById?_spec he
      exact (h.ends_bind id hl hr).mono (fun _ _ _ => trivial) fun _ => False.elim
    · exact Ends.throw rfl
  | setAttribute id name value ns => exact ends_withNode rfl fun r _ => cautious_writeAttribute r name value ns s
  | removeAttribute id name ns =>
    exact ends_withNode rfl fun r _ => cautious_onStore (Store.cautious_updateElement r _ _)
  | toggleAttribute id name force =>
    exact ends_withNode rfl fun r _ => (cautious_onStore (Store.cautious_toggleAttribute r name force _)).discard
  | setStyle id property value =>
    exact ends_withNode rfl fun r _ => cautious_onStore (Store.cautious_updateElement r _ _)
  | setProperty id property value =>
    exact ends_withNode rfl fun r hr => h.cautious_assign (hbound hr).1 (hbound hr).2 property value
  | remove id =>
    refine ends_withNode rfl fun r hr => (h.succeeds_releaseSubtree (hbound hr).1 ?_).cautious
    rintro rfl
    exact hroot id rfl hr
  | replaceWith id ids =>
    refine ends_withNode rfl fun r hr => ends_withNodes rfl fun rs hrs => ?_
    refine h.cautious_replace (hbound hr).1 (hbound hr).2 fun c hc => ?_
    obtain ⟨j, -, hj⟩ := (mem_nodes_iff hrs).mp hc
    exact (hbound hj).2
  | freeId id =>
    refine Ends.get_bind ?_
    split
    · refine Cautious.surely (R := fun _ t => t.Sound closed ts) (Ends.modify (h.release id)) fun _ t ht => ?_
      exact (ht.ends_reclaim _).mono (fun _ _ _ => trivial) fun _ => False.elim
    · exact Ends.pure trivial
  | addListener id name callback capture =>
    exact ends_withNode rfl fun r _ => cautious_listen r name callback capture s
  | removeListener id name callback capture =>
    exact ends_withNode rfl fun r _ => cautious_unlisten r name callback capture s
  | _ => exact absurd hi (by simp [Instruction.isStepwise])

/-- **The document is not removed, but the ids of all its nodes are unbound.** -/
theorem ends_remove_document (h : s.Sound closed ts) (hid : s.bindings.get? id = some .root) :
    Ends (Scene.execute (.remove id)) s (fun _ _ => False)
      fun t => t.store = s.store ∧ s.bindings.Unbinds (.root ∈ s.store.ancestors ·) t.bindings := by
  change Ends (node id >>= fun r => Scene.releaseSubtree r) s _ _
  rw [Ends, bind_of_ok (node_of_get? hid)]
  exact (h.ends_releaseSubtree .root).mono (fun _ _ ht => ht.2.1 rfl) fun _ ht => ht.2

/-- **What is left when an instruction is refused.** -/
theorem ends_execute_refused (h : s.Sound closed ts) (hd : s.Described) {i : Instruction}
    (hi : i.isStepwise = false) : Ends (Scene.execute i) s (fun _ _ => True) (s.Refused i) := by
  have hkeep := templates_execute (κ := κ) (i := i) (fun _ _ he => by simp [he, Instruction.isStepwise] at hi) s
  by_cases hroot : ∃ id, i = .remove id ∧ s.bindings.get? id = some .root
  · obtain ⟨id, rfl, hid⟩ := hroot
    refine ((h.ends_remove_document hid).and hkeep).mono (fun _ _ _ => trivial) fun t ⟨⟨hstore, hids⟩, htm⟩ => ?_
    -- the document is at the top of its tree, and its id with it
    have hgone : t.bindings.get? id ≠ some .root := fun hn =>
      ((hids id .root).mp hn).2 (Store.mem_ancestors_self h.store.wellFormed.live_root)
    have hne : t ≠ s := fun he => hgone (he ▸ hid)
    exact ⟨iff_of_false hne fun hn => hn id rfl hid, hstore, htm, fun _ => hids⟩
  · have hother : ∀ id, i = .remove id → s.bindings.get? id ≠ some .root := fun id hi hid => hroot ⟨id, hi, hid⟩
    refine (h.cautious_execute hd hi hother).mono (fun _ _ _ => trivial) ?_
    rintro _ rfl
    exact ⟨iff_of_true rfl hother, rfl, rfl, fun hne => absurd rfl hne⟩

end Sound

end Scene

namespace Host

variable {d : Document} {calls : List Call}

/-- **An instruction that is refused changes nothing, in every run**, unless it is made of several steps or asks
for the document to be removed. -/
theorem refused_moments (hd : d.Whole) (buffer : SharedBuffer) (delegates : Bool)
    (hp : (opened d buffer delegates).Permits calls) :
    ∀ s ∈ (opened d buffer delegates).moments calls, ∀ (i : Instruction), i.isStepwise = false →
      ∀ e t, Scene.execute i s = .error e t → s.Refused i t := by
  intro s hm i hi e t hrun
  obtain ⟨ts, hs⟩ := isSound_of_mem_moments ⟨[], Scene.sound_of_whole hd⟩ hp hm
  exact (hs.ends_execute_refused (described_moments hd buffer delegates hp s hm) hi).error hrun

/-- The body is not replaced by the element that it is in. -/
theorem exists_refused_moments :
    let h := opened .new (.new 1 1) false
    let calls : List Call := [.start (.cell 3 0) [], .setNode ⟨1⟩ (.cell 1 0)]
    let s := (calls.foldl Call.apply h).scene
    let i : Instruction := .replaceWith .root [⟨1⟩]
    h.Permits calls ∧ s ∈ h.moments calls ∧ i.isStepwise = false ∧
      ∃ e t, Scene.execute i s = .error e t ∧ s.Refused i t ∧ t = s := by
  intro h calls s i
  have hp : h.Permits calls := by decide +kernel
  have hm : s ∈ h.moments calls := scene_foldl_apply_mem_moments h calls
  have hfails : (match Scene.execute i s with
      | .ok _ _ => false
      | .error _ _ => true) = true := by decide +kernel
  cases hrun : Scene.execute i s with
  | ok u t =>
    rw [hrun] at hfails
    exact absurd hfails Bool.false_ne_true
  | error e t =>
    have hrefused := refused_moments Document.whole_new (.new 1 1) false hp s hm i rfl e t hrun
    exact ⟨hp, hm, rfl, e, t, rfl, hrefused, hrefused.eq_iff.mpr fun _ he => Instruction.noConfusion he⟩

/-- The document is asked to be removed. It is not, but it has lost its id. -/
theorem exists_refused_changed :
    let h := opened .new (.new 1 1) false
    let calls : List Call := [.start .root []]
    let s := (calls.foldl Call.apply h).scene
    let i : Instruction := .remove .root
    h.Permits calls ∧ s ∈ h.moments calls ∧ i.isStepwise = false ∧
      ∃ e t, Scene.execute i s = .error e t ∧ t.bindings.get? .root ≠ s.bindings.get? .root ∧ t ≠ s := by
  intro h calls s i
  have hp : h.Permits calls := by decide +kernel
  have hm : s ∈ h.moments calls := scene_foldl_apply_mem_moments h calls
  have hlost : (match Scene.execute i s with
      | .ok _ _ => false
      | .error _ t => decide (t.bindings.get? .root ≠ s.bindings.get? .root)) = true := by decide +kernel
  cases hrun : Scene.execute i s with
  | ok u t =>
    rw [hrun] at hlost
    exact absurd hlost Bool.false_ne_true
  | error e t =>
    rw [hrun] at hlost
    have hid := of_decide_eq_true hlost
    exact ⟨hp, hm, rfl, e, t, rfl, hid, fun he => hid (by rw [he])⟩

end Host

end DomHost
