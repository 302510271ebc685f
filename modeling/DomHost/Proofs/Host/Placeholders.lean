import DomHost.Proofs.Host.Attended
import DomHost.Proofs.Scene.Yielding

/-!
# Nodes without content

A node without content is created for an id by a call, or by an instruction. Both tie the id to a new comment,
and end in the same tables unless the id leaves a tree behind that no id reaches any more. The instruction frees
that tree with its listeners; the call leaves it where it is.

* `Host.createNode_eq`, `Host.pass_createPlaceholder`: both ways as equations;
* **`Host.createNode_agrees_iff`**: when they end alike in a run, and what differs otherwise;
* **`Host.exists_stranded_node`**: a node that only the instruction frees.
-/

namespace DomHost

/-- A report of closures that were released makes no difference. -/
theorem Scene.SameBut.reported {gone : List NodeRef} {s t : Scene Reaction} (h : s.SameBut gone t) :
    s.SameBut gone (Host.reported t) :=
  ⟨h.data, h.parent?, h.children, h.nodes, h.ids, h.listeners, h.counts⟩

namespace Host

variable {d : Document} {h : Host} {m : MemoryBridge} {offset : Nat}

/-- The scene with a new comment, which an id is tied to. -/
def withPlaceholder (s : Scene Reaction) (id : NodeId) : Scene Reaction :=
  (s.withStore (s.store.create (.comment placeholderText)).2).tied id s.store.cells.draw.1

theorem createNode_eq (id : NodeId) (h : Host) :
    createNode id h = .ok h.scene.store.cells.draw.1 { h with scene := withPlaceholder h.scene id } := rfl

theorem adds_placeholder (hs : h.scene.Coherent) :
    h.scene.store.Adds [h.scene.store.cells.draw.1] (h.scene.store.create (.comment placeholderText)).2 :=
  hs.wellFormed.adds_create rfl

theorem whole_withPlaceholder (hs : h.scene.Coherent) (id : NodeId) :
    (withPlaceholder h.scene id).document.Whole :=
  have ha := adds_placeholder hs
  ⟨ha.after, hs.document.listeners, fun x hx => ha.live x (hs.document.live x hx)⟩

/-- **The instruction ends as the call does, or without the tree that is left behind.** -/
theorem pass_createPlaceholder (hs : h.scene.Coherent) (id : NodeId) :
    ∃ t, pass [.createPlaceholder id] h = .ok 1 (h.settle t) ∧
      ((∀ old, ¬ h.scene.Strands id old) → t = withPlaceholder h.scene id) ∧
      ∀ old, h.scene.Strands id old → (withPlaceholder h.scene id).isOrphan old = true ∧
        t = (withPlaceholder h.scene id).freed old := by
  let s := h.scene.withStore (h.scene.store.create (.comment placeholderText)).2
  let r := h.scene.store.cells.draw.1
  have ha := adds_placeholder hs
  have hyields : ∀ old, s.yielded id r = some old ↔ h.scene.Strands id old := fun old =>
    Scene.yielded_create hs.wellFormed hs.bindings ha
  have hexecute : Scene.execute (.createPlaceholder id) h.scene =
      .ok () ((s.yielded id r).elim (s.tied id r) (s.tied id r).freed) :=
    Scene.bind_eq (s := s) (whole_withPlaceholder hs id) id r
  refine ⟨_, pass_of_ok (bind_of_ok hexecute), fun hn => ?_, fun old ho => ?_⟩
  · rw [Option.eq_none_iff_forall_ne_some.mpr fun old ho => hn old ((hyields old).mp ho)]
    rfl
  · have hsome := (hyields old).mpr ho
    rw [hsome]
    exact ⟨Scene.isOrphan_of_yielded hsome, rfl⟩

/-- A call and an instruction have both created a node without content for an id of a host. They end in the same
tables unless the id leaves a tree behind; then the tables differ by the nodes of this tree and their listeners. -/
structure CreatesAlike (h k l : Host) (id : NodeId) : Prop where
  same_iff : k.scene.SameBut [] l.scene ↔ ∀ old, ¬ h.scene.Strands id old
  left_behind : ∀ old, h.scene.Strands id old → (k.scene.store.get? old).isSome ∧
    l.scene.store.get? old = none ∧ k.scene.SameBut (k.scene.store.descendants old) l.scene

theorem exists_createsAlike (hs : h.scene.Coherent) (id : NodeId) (hm : Holds m offset [.createPlaceholder id]) :
    ∃ r k l, createNode id h = .ok r k ∧ applyEncoded m offset [.createPlaceholder id] h = .ok 1 l ∧
      CreatesAlike h k l id := by
  obtain ⟨t, hpass, hsame, hfreed⟩ := pass_createPlaceholder hs id
  have hfits : ∀ i ∈ [Instruction.createPlaceholder id], i.Fits := by simp [Instruction.Fits]
  have halike := alike_applyEncoded hfits hm (h := h) (k := h) ⟨h.memory, rfl⟩
  rw [hpass] at halike
  obtain ⟨l, happly, _, rfl⟩ := halike.of_ok
  have hwhole := whole_withPlaceholder hs id
  have hless : ∀ old, h.scene.Strands id old → ((withPlaceholder h.scene id).store.get? old).isSome ∧
      (reported t).store.get? old = none ∧
      (withPlaceholder h.scene id).SameBut ((withPlaceholder h.scene id).store.descendants old) (reported t) := by
    intro old ho
    obtain ⟨horphan, rfl⟩ := hfreed old ho
    have hlive := ((Scene.isOrphan_iff hwhole.store).mp horphan).2.1
    have hbut := (Scene.sameBut_freed hwhole hs.ours horphan).reported
    have hin := hwhole.store.mem_descendants_iff.mpr (Store.mem_ancestors_self hlive)
    exact ⟨Store.get?_isSome_iff.mpr hlive, (hbut.data old).trans (if_pos hin), hbut⟩
  refine ⟨_, _, _, createNode_eq id h, happly, ⟨fun hk old ho => ?_, fun hn => ?_⟩, hless⟩
  · obtain ⟨hlive, hgone, -⟩ := hless old ho
    have hsame := (hk.data old).symm.trans hgone
    rw [if_neg List.not_mem_nil] at hsame
    rw [hsame] at hlive
    exact absurd hlive Bool.false_ne_true
  · rw [hsame hn]
    exact (Scene.SameBut.refl _).reported

/-- **In every run the call and the instruction both create a node for an id, and end in the same tables unless the
id leaves a tree behind.** -/
theorem createNode_agrees_iff (hd : d.store.WellFormed) (hl : d.listeners = {}) (buffer : SharedBuffer)
    (delegates : Bool) (calls : List Call) (id : NodeId) (hm : Holds m offset [.createPlaceholder id]) :
    let h := calls.foldl Call.apply (opened d buffer delegates)
    ∃ r k l, createNode id h = .ok r k ∧ applyEncoded m offset [.createPlaceholder id] h = .ok 1 l ∧
      CreatesAlike h k l id :=
  exists_createsAlike (staffed_foldl_apply hd hl buffer delegates calls).coherent id hm

/-- A shared buffer with the instruction that creates a node for an id. -/
def placeholderMemory (id : NodeId) : MemoryBridge :=
  { buffer := { bytes := (Instruction.encode (.createPlaceholder id)).toArray, maxPages := 1 } }

/-- The id of an element that a closure listens on is given to a new node. -/
theorem exists_createNode_agrees :
    let edits := Instruction.encodeAll [.createElement ⟨1⟩ "div" none, .addListener ⟨1⟩ "click" ⟨7⟩ false]
    let calls : List Call := [.registerCallback ⟨7⟩ fun _ => {},
      .changeMemory { bytes := edits.toArray, maxPages := 1 }, .applyEdits 0 edits.length]
    let h := calls.foldl Call.apply (opened .new (.new 1 1) true)
    Holds (placeholderMemory ⟨1⟩) 0 [.createPlaceholder ⟨1⟩] ∧ h.scene.Strands ⟨1⟩ (.cell 4 0) ∧
      ∃ r k l, createNode ⟨1⟩ h = .ok r k ∧
        applyEncoded (placeholderMemory ⟨1⟩) 0 [.createPlaceholder ⟨1⟩] h = .ok 1 l ∧
        CreatesAlike h k l ⟨1⟩ ∧ k.scene.callbacks.count ⟨7⟩ = 1 ∧ l.scene.callbacks.count ⟨7⟩ = 0 := by
  intro edits calls h
  have hm : Holds (placeholderMemory ⟨1⟩) 0 [.createPlaceholder ⟨1⟩] := ⟨by decide +kernel, by decide +kernel⟩
  have ho : h.scene.Strands ⟨1⟩ (.cell 4 0) :=
    ⟨by decide +kernel, by decide +kernel, by decide +kernel, by decide +kernel, by decide +kernel⟩
  obtain ⟨r, k, l, hk, hl, halike⟩ :=
    createNode_agrees_iff Document.over_new.store rfl (.new 1 1) true calls ⟨1⟩ hm
  obtain ⟨-, rfl⟩ := EStateM.Result.ok.inj (hk.symm.trans (createNode_eq ⟨1⟩ h))
  have hcount : (withPlaceholder h.scene ⟨1⟩).callbacks.count ⟨7⟩ = 1 := by decide +kernel
  have huses : (withPlaceholder h.scene ⟨1⟩).document.listeners.usesAt
      ((withPlaceholder h.scene ⟨1⟩).store.descendants (.cell 4 0)) ⟨7⟩ = 1 := by decide +kernel
  have hleft := (halike.left_behind _ ho).2.2.counts ⟨7⟩
  exact ⟨hm, ho, r, _, l, hk, hl, halike, hcount, hleft.trans (by rw [hcount, huses])⟩

/-- **A node that only the instruction frees**: an id is given to a new node twice. The call leaves the first node
live and without an id, and the instruction frees it. -/
theorem exists_stranded_node :
    let h := (Call.createNode ⟨1⟩).apply (opened .new (.new 1 1) true)
    Holds (placeholderMemory ⟨1⟩) 0 [.createPlaceholder ⟨1⟩] ∧
      ∃ r k l, createNode ⟨1⟩ h = .ok r k ∧
        applyEncoded (placeholderMemory ⟨1⟩) 0 [.createPlaceholder ⟨1⟩] h = .ok 1 l ∧
        (k.scene.store.get? (.cell 4 0)).isSome ∧ l.scene.store.get? (.cell 4 0) = none ∧
        ¬ k.scene.SameBut [] l.scene := by
  intro h
  have hm : Holds (placeholderMemory ⟨1⟩) 0 [.createPlaceholder ⟨1⟩] := ⟨by decide +kernel, by decide +kernel⟩
  have hs : h.scene.Coherent :=
    (staffed_foldl_apply Document.over_new.store rfl (.new 1 1) true [.createNode ⟨1⟩]).coherent
  have ho : h.scene.Strands ⟨1⟩ (.cell 4 0) :=
    ⟨by decide +kernel, by decide +kernel, by decide +kernel, by decide +kernel, by decide +kernel⟩
  obtain ⟨r, k, l, hk, hl, halike⟩ := exists_createsAlike hs ⟨1⟩ hm
  obtain ⟨hlive, hgone, -⟩ := halike.left_behind _ ho
  exact ⟨hm, r, k, l, hk, hl, hlive, hgone, fun hsame => halike.same_iff.mp hsame _ ho⟩

end Host

end DomHost
