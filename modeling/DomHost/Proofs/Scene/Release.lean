import DomHost.Proofs.Scene.Sound

/-!
# Giving up nodes

A tree is freed after the ids and listeners of its nodes, so that none of them is left to name a node
that is gone.

* **`Scene.Sound.releaseSubtree`**, `Scene.Sound.releaseChildren`: freeing trees;
* `Scene.Sound.reclaim`, **`Scene.Sound.bind`**: what is freed when an id moves on.
-/

namespace DomHost.Scene.Sound

variable {κ : Type} {closed : Prop} {s : Scene κ} {ts : List (Node × Forest Node)} {r : NodeRef}

/-- **A tree outside the templates is freed with its ids and listeners.** -/
theorem releaseSubtree (h : s.Sound closed ts) (hr : r ∉ Store.refsOf ts) :
    Ends (releaseSubtree r) s (fun _ => Sound closed ts) (Sound closed ts) := by
  unfold Scene.releaseSubtree
  obtain ⟨hs, hstore, -, hheld⟩ := h.foldl_strip (s.store.descendants r)
  refine (Ends.modify (f := fun s : Scene κ => (s.store.descendants r).foldl Scene.strip s)
    (Q := fun _ s' => s' = (s.store.descendants r).foldl Scene.strip s) rfl).bind ?_
  rintro _ _ rfl
  have hfree := Document.ends_freeSubtree ⟨rfl, hs.store⟩ hr fun x hx hd =>
    hheld x (hstore ▸ hd) ((List.mem_append.mp hx).elim id (List.mem_append_right _))
  refine (ends_onDocument hs.overSelf hfree).discard.mono ?_ fun _ ho => hs.of_over ho
  rintro _ _ ⟨_, ho⟩
  exact hs.of_over ho

theorem releaseChildren (h : s.Sound closed ts) (hr : r ∉ Store.refsOf ts) :
    Ends (releaseChildren r) s (fun _ => Sound closed ts) (Sound closed ts) := by
  unfold Scene.releaseChildren
  refine Ends.get_bind (Ends.forM (fun c hc s hs => ?_) h)
  exact hs.releaseSubtree (h.store.child_notMem hr hc)

theorem reclaim (h : s.Sound closed ts) (hr : r ∉ Store.refsOf ts) :
    Ends (reclaim r) s (fun _ => Sound closed ts) (Sound closed ts) := by
  unfold Scene.reclaim
  exact Ends.get_bind (Ends.ite (fun _ => h.releaseSubtree hr) fun _ => Ends.pure h)

/-- **An id moves to a live node outside the templates, and what it leaves behind may be freed.** -/
theorem bind (h : s.Sound closed ts) (id : NodeId) (hl : s.store.Live r) (hr : r ∉ Store.refsOf ts) :
    Ends (bind id r) s (fun _ => Sound closed ts) (Sound closed ts) := by
  unfold Scene.bind
  refine Ends.get_bind ?_
  refine (Ends.modify (Q := fun _ => Sound closed ts) (h.tie id hl hr)).bind fun _ s' hs => ?_
  cases hp : (s.bindings.get? id).filter (· != r) with
  | none => exact Ends.pure hs
  | some old =>
    have hold := (Option.filter_eq_some_iff.mp hp).1
    exact hs.reclaim (h.notMem_of_get? hold)

end DomHost.Scene.Sound
