import DomHost.Proofs.Keeps
import DomHost.Proofs.Store.Operations
import DomHost.Store.Content

/-!
# Operations on contents and places

An attribute or a style is changed by reading the element and writing it back. These operations keep what
every change of the data of the node keeps. Nodes are moved by taking them out and by putting them under a
parent that may have them, and what both steps keep, every operation that moves nodes keeps.

* `Element.Reattributed`: an attribute that is set or removed;
* `Store.keeps_require`, `Store.keeps_requireElement`: reading;
* **`Store.keeps_updateElement`**: changing an element;
* `Store.keeps_setAttribute`, `Store.keeps_toggleAttribute` and others: attributes and style;
* **`Store.keeps_insertBefore`**, `Store.keeps_replaceWith` and others: moving nodes.
-/

namespace DomHost

/-- An element with an attribute set, or with one removed. -/
def Element.Reattributed (e e' : Element) : Prop :=
  (∃ a, e' = e.setAttr a) ∨ ∃ ns localName, e' = e.removeAttr ns localName

namespace Store

variable {R : Store → Store → Prop} (hR : Lasting R)

section Contents

include hR

theorem keeps_require (r : NodeRef) : Keeps R (require r) := by
  refine .get_bind fun s => ?_
  split
  · exact .pure hR _
  · exact .throw hR _

theorem keeps_requireElement (r : NodeRef) : Keeps R (requireElement r) := by
  refine .bind hR (keeps_require hR r) fun d => ?_
  split
  · exact .pure hR _
  · exact .throw hR _

theorem keeps_liftResult {α : Type} (x : Except DomError α) : Keeps R (liftResult x : StoreM α) :=
  fun s => Ends.liftResult (fun _ _ => hR.refl s) (hR.refl s)

/-- **Changing an element keeps what a change of its data keeps.** -/
theorem keeps_updateElement {r : NodeRef} (hset : ∀ s data, R s (setData s r data)) (f : Element → Element) :
    Keeps R (updateElement r f) :=
  .bind hR (keeps_requireElement hR r) fun _ => .modify fun s => hset s _

variable {r : NodeRef} (hattr : ∀ f : Element → Element, (∀ e : Element, e.Reattributed (f e)) →
  Keeps R (updateElement r f))
include hattr

theorem keeps_setAttribute (name value : String) : Keeps R (setAttribute r name value) :=
  .bind hR (keeps_liftResult hR _) fun _ => hattr _ fun _ => Or.inl ⟨_, rfl⟩

theorem keeps_setAttributeNs (ns : Option String) (name value : String) :
    Keeps R (setAttributeNs r ns name value) :=
  .bind hR (keeps_liftResult hR _) fun _ => hattr _ fun _ => Or.inl ⟨_, rfl⟩

omit hR in
theorem keeps_removeAttribute (ns : Option String) (name : String) : Keeps R (removeAttribute r ns name) :=
  hattr _ fun _ => by
    split
    · exact Or.inr ⟨_, _, rfl⟩
    · exact Or.inr ⟨_, _, rfl⟩

theorem keeps_toggleAttribute (name : String) (force : Option Bool) :
    Keeps R (toggleAttribute r name force) := by
  refine .bind hR (keeps_liftResult hR _) fun _ => .bind hR (keeps_requireElement hR r) fun e => ?_
  refine .ite ?_ (.ite ?_ (.pure hR _))
  · exact .bind hR (keeps_setAttribute hR hattr name "") fun _ => .pure hR _
  · exact .bind hR (keeps_removeAttribute hattr none name) fun _ => .pure hR _

end Contents

/-! ## Moving nodes -/

section Moves

include hR

theorem keeps_checkInsertion (parent child : NodeRef) : Keeps R (checkInsertion parent child) := fun s =>
  (ends_checkInsertion s parent child).mono (fun _ _ h => h.1 ▸ hR.refl s) fun _ h => h ▸ hR.refl s

variable (htake : ∀ s r, R s (takeOut s r))
include htake

theorem keeps_detach (r : NodeRef) : Keeps R (detach r) :=
  .bind hR (keeps_require hR r).discard fun _ => .modify fun s => htake s r

theorem keeps_removeChild (parent child : NodeRef) : Keeps R (removeChild parent child) := by
  refine .bind hR (keeps_require hR child).discard fun _ => .get_bind fun s => ?_
  exact .ite (.modify fun s => htake s child) (.throw_bind hR _ _)

variable (hplace : ∀ s parent child before, s.Insertable parent child → R s (place s parent child before))
include hplace

omit htake in
/-- **A node that is put under another one keeps what every place for it keeps.** -/
theorem keeps_insertBefore (parent child : NodeRef) (reference : Option NodeRef) :
    Keeps R (insertBefore parent child reference) := by
  refine fun s => (ends_insertBefore s parent child reference).mono ?_ fun _ h => h ▸ hR.refl s
  rintro _ _ ⟨hi, before, rfl⟩
  exact hplace s parent child before hi

omit htake in
theorem keeps_insertAt (parent : NodeRef) (nodes candidates : List NodeRef) :
    Keeps R (insertAt parent nodes candidates) :=
  .forM hR (fun child => keeps_insertBefore hR hplace parent child _) nodes

omit htake in
theorem keeps_insertAfter (reference : NodeRef) (nodes : List NodeRef) :
    Keeps R (insertAfter reference nodes) := by
  refine .get_bind fun s => ?_
  split
  · exact (keeps_require hR reference).discard
  · exact .get_bind fun s => keeps_insertAt hR hplace _ nodes _

omit htake in
theorem keeps_insertAllBefore (reference : NodeRef) (nodes : List NodeRef) :
    Keeps R (insertAllBefore reference nodes) := by
  refine .get_bind fun s => ?_
  split
  · exact (keeps_require hR reference).discard
  · exact .get_bind fun s => keeps_insertAt hR hplace _ nodes _

theorem keeps_replaceWith (old : NodeRef) (nodes : List NodeRef) : Keeps R (replaceWith old nodes) := by
  refine .get_bind fun s => ?_
  split
  · exact (keeps_require hR old).discard
  · rename_i parent _
    refine .bind hR (.forM hR (keeps_checkInsertion hR parent) nodes) fun _ => .get_bind fun s => ?_
    refine .ite (keeps_insertAt hR hplace parent nodes _) ?_
    exact .bind hR (keeps_detach hR htake old) fun _ => keeps_insertAt hR hplace parent nodes _

end Moves

end Store

end DomHost
