import DomHost.Proofs.Document
import DomHost.Edit.Execute

/-!
# Relations between the nodes of scenes

Ids, templates, closures and listeners do not matter for what an operation does to the nodes of a scene. So a
relation between stores is one between scenes too, and an operation that works on nodes by a few edits keeps it if
these edits do.

* `Scene.OnNodes`: the nodes of two scenes are related;
* `Scene.onNodes_onDocument`, `Scene.onNodes_onStore`: operations on the document;
* `Scene.onNodes_node`, `Scene.onNodes_tieSlots`, `Scene.onNodes_listen`: operations that leave the nodes alone;
* **`Scene.onNodes_releaseSubtree`**, `Scene.onNodes_bind`: nodes that are given up;
* `Scene.onNodes_complete`, `Scene.onNodes_instantiate`, `Scene.onNodes_replace`: nodes that move, and copies.
-/

namespace DomHost.Scene

variable {κ α : Type} {R : Store → Store → Prop}

/-- The nodes of two scenes are related. -/
def OnNodes (R : Store → Store → Prop) (s t : Scene κ) : Prop := R s.store t.store

/-- What an operation on the store ends with, as one on the scene. -/
theorem ends_onNodes {s : Scene κ} {x : StoreM α} {Q : α → Store → Prop} {E : Store → Prop}
    (hx : Ends x s.store Q E) :
    Ends (onDocument (Document.onStore x)) s (fun a t => Q a t.store) fun t => E t.store := by
  have hd := Document.ends_onStore (d := s.document) rfl hx
  unfold Ends at hd
  unfold Ends onDocument
  cases hrun : Document.onStore x s.document <;> rw [hrun] at hd <;> exact hd.store

theorem onNodes_onDocument {x : DocumentM α} (hx : Keeps (fun d d' : Document => R d.store d'.store) x) :
    Keeps (OnNodes (κ := κ) R) (onDocument x) := by
  intro s
  have hs := hx s.document
  unfold Ends at hs
  unfold Ends onDocument
  cases hd : x s.document <;> rw [hd] at hs <;> exact hs

theorem onNodes_onStore {x : StoreM α} (hx : Keeps R x) :
    Keeps (OnNodes (κ := κ) R) (onDocument (Document.onStore x)) := fun s => ends_onNodes (hx s.store)

theorem store_foldl_strip (s : Scene κ) (rs : List NodeRef) : (rs.foldl strip s).store = s.store := by
  induction rs generalizing s with
  | nil => rfl
  | cons r rs ih => exact ih (s.strip r)

section

variable (hR : DomHost.Lasting R)

include hR

theorem lasting_onNodes : DomHost.Lasting (OnNodes (κ := κ) R) := ⟨fun s => hR.refl s.store, hR.trans⟩

/-! ## Nodes that stay as they are -/

/-- Ids, templates and closures may change. -/
theorem onNodes_modify {f : Scene κ → Scene κ} (hf : ∀ s, (f s).store = s.store) :
    Keeps (OnNodes R) (modify f : SceneM κ PUnit) :=
  .modify fun s => by
    unfold OnNodes
    rw [hf]
    exact hR.refl s.store

theorem onNodes_node (id : NodeId) : Keeps (OnNodes (κ := κ) R) (node id) := by
  refine Keeps.get_bind fun s => ?_
  split
  · exact .pure (lasting_onNodes hR) _
  · exact .throw (lasting_onNodes hR) _

theorem onNodes_nodes (ids : List NodeId) : Keeps (OnNodes (κ := κ) R) (nodes ids) :=
  .mapM (lasting_onNodes hR) (onNodes_node hR) ids

theorem onNodes_tieSlots (t : Template) (root : NodeRef) (slots : List (List Nat × NodeId)) :
    Keeps (OnNodes (κ := κ) R) (tieSlots t root slots) := by
  induction slots with
  | nil => exact .pure (lasting_onNodes hR) _
  | cons slot rest ih =>
    obtain ⟨path, id⟩ := slot
    refine Keeps.get_bind fun s => ?_
    split
    · exact .bind (lasting_onNodes hR) (onNodes_modify hR fun _ => rfl) fun _ => ih
    · exact .throw_bind (lasting_onNodes hR) _ _

theorem onNodes_listen (r : NodeRef) (name : String) (c : CallbackId) (capture : Bool) :
    Keeps (OnNodes (κ := κ) R) (listen r name c capture) := by
  have hL := lasting_onNodes (κ := κ) hR
  refine Keeps.get_bind fun s => ?_
  split
  · refine .bind hL (onNodes_onDocument (Document.keeps_addListener hR r _)) fun _ => .ite ?_ (.pure hL _)
    refine Keeps.get_bind fun s => ?_
    split
    · exact onNodes_modify hR fun _ => rfl
    · exact .throw hL _
  · exact .throw_bind hL _ _

theorem onNodes_unlisten (r : NodeRef) (name : String) (c : CallbackId) (capture : Bool) :
    Keeps (OnNodes (κ := κ) R) (unlisten r name c capture) := by
  have hL := lasting_onNodes (κ := κ) hR
  refine .bind hL (onNodes_onDocument (Document.keeps_removeListener hR r name _ capture)) fun _ => ?_
  refine .ite (Keeps.get_bind fun s => ?_) (.pure hL _)
  split
  · exact onNodes_modify hR fun _ => rfl
  · exact .pure hL _

/-! ## Nodes that are given up -/

section Release

variable (hfree : ∀ r, Keeps R (Store.freeSubtree r))

include hfree

/-- **A tree that is given up is freed.** -/
theorem onNodes_releaseSubtree (r : NodeRef) : Keeps (OnNodes (κ := κ) R) (releaseSubtree r) :=
  .bind (lasting_onNodes hR) (onNodes_modify hR fun s => store_foldl_strip s _) fun _ =>
    (onNodes_onDocument (Document.keeps_freeSubtree hR (hfree r))).discard

theorem onNodes_releaseChildren (r : NodeRef) : Keeps (OnNodes (κ := κ) R) (releaseChildren r) :=
  Keeps.get_bind fun _ => .forM (lasting_onNodes hR) (onNodes_releaseSubtree hR hfree) _

theorem onNodes_reclaim (r : NodeRef) : Keeps (OnNodes (κ := κ) R) (reclaim r) :=
  Keeps.get_bind fun _ => .ite (onNodes_releaseSubtree hR hfree r) (.pure (lasting_onNodes hR) _)

theorem onNodes_bind (id : NodeId) (r : NodeRef) : Keeps (OnNodes (κ := κ) R) (bind id r) := by
  refine Keeps.get_bind fun s => .bind (lasting_onNodes hR) (onNodes_modify hR fun _ => rfl) fun _ => ?_
  cases (s.bindings.get? id).filter (· != r) with
  | none => exact .pure (lasting_onNodes hR) _
  | some old => exact onNodes_reclaim hR hfree old

theorem onNodes_replace {old : NodeRef} {rs : List NodeRef} (hreplace : Keeps R (Store.replaceWith old rs)) :
    Keeps (OnNodes (κ := κ) R) (replace old rs) := by
  refine Keeps.get_bind fun s => .bind (lasting_onNodes hR) (onNodes_onStore hreplace) fun _ => ?_
  exact .ite (onNodes_releaseSubtree hR hfree old) (.pure (lasting_onNodes hR) _)

end Release

/-! ## Templates -/

theorem onNodes_complete (happend : ∀ p c, Keeps R (Store.appendChild p c)) (r : NodeRef)
    (waiting : List OpenElement) : Keeps (OnNodes (κ := κ) R) (complete r waiting) := by
  induction waiting generalizing r with
  | nil => exact .pure (lasting_onNodes hR) _
  | cons o rest ih =>
    unfold complete
    refine .ite (.pure (lasting_onNodes hR) _) ?_
    refine .bind (lasting_onNodes hR) (.forM (lasting_onNodes hR) (fun c => ?_) _) fun _ => ih o.node
    exact onNodes_onStore (happend o.node c)

theorem onNodes_instantiate (hclone : ∀ r, Keeps R (Store.cloneSubtree r)) (number : UInt32) (ids : List NodeId) :
    Keeps (OnNodes (κ := κ) R) (instantiate number ids) := by
  have hL := lasting_onNodes (κ := κ) hR
  refine Keeps.get_bind fun s => ?_
  split
  · exact .throw hL _
  · rename_i t _
    refine .ite (.throw_bind hL _ _) (.bind hL (onNodes_onStore (hclone t.root)) fun root => ?_)
    exact .bind hL (onNodes_tieSlots hR t root _) fun _ => .pure hL root

end

end DomHost.Scene
