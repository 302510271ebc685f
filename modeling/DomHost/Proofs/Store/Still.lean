import DomHost.Proofs.Document
import DomHost.Proofs.Store.Ancestry
import DomHost.Proofs.Store.Contents

/-!
# Contents leave nodes where they are

What a node is has nothing to do with where it stands, so no node moves when attributes, style or the state
of a control change.

* `Store.Still`: stores in which every node has the same way up;
* `Store.still_updateElement`: changing an element;
* **`Document.still_setProperty`**: assigning a property that is not the content of a node.
-/

namespace DomHost

/-! ## Stores -/

namespace Store

variable {s s' : Store} {r x : NodeRef}

/-- Every node has the same way up as before. -/
def Still (s s' : Store) : Prop := ∀ x, s'.ancestors x = s.ancestors x

theorem lasting_still : Lasting Still := ⟨fun _ _ => rfl, fun h h' x => (h' x).trans (h x)⟩

/-- A way up is empty only if there is no node. -/
theorem live_iff_ancestors : s.Live x ↔ s.ancestors x ≠ [] := by
  refine ⟨fun hl => List.ne_nil_of_mem (mem_ancestors_self hl), fun hn => ?_⟩
  by_contra hl
  exact hn (ancestors_eq_nil hl)

theorem Still.live (h : s.Still s') : s'.Live x ↔ s.Live x := by
  rw [live_iff_ancestors, live_iff_ancestors, h x]

/-- **A node that becomes another one stays where it is.** -/
theorem still_setData (s : Store) (r : NodeRef) (data : NodeData) : s.Still (s.setData r data) := by
  intro x
  have href : ∀ n : Node, (if is r n then { n with data } else n).ref = n.ref := by
    intro n
    split <;> rfl
  have hpath := Forest.pathTo?_relabel (p := is x) (q := is r) (g := fun n => { n with data })
    (fun n => by rw [is, href, is]) s.forest []
  rw [ancestors, setData, ← List.map_nil, hpath, ancestors]
  cases s.forest.pathTo? (is x) [] with
  | none => rfl
  | some path => exact (List.map_map).trans (List.map_congr_left fun n _ => href n)

theorem still_updateElement (r : NodeRef) (f : Element → Element) : Keeps Still (updateElement r f) :=
  keeps_updateElement lasting_still (fun s => still_setData s r) f

theorem still_setAttribute (r : NodeRef) (name value : String) : Keeps Still (setAttribute r name value) :=
  keeps_setAttribute lasting_still (fun f _ => still_updateElement r f) name value

end Store

/-! ## Documents -/

namespace Document

variable {α : Type}

/-- Every node of the document has the same way up as before. -/
def Still (d d' : Document) : Prop := d.store.Still d'.store

/-- **No node moves when a property is assigned that is not the text.** -/
theorem still_setProperty (r : NodeRef) {property : Property} (hp : property ≠ .textContent)
    (value : String) : Keeps Still (setProperty r property value) :=
  keeps_setProperty Store.lasting_still (fun r f _ => Store.still_updateElement r f)
    (fun name _ => Store.still_setAttribute r name value) fun he => absurd he hp

end Document

end DomHost
