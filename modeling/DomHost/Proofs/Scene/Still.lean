import DomHost.Proofs.Scene.Effects
import DomHost.Proofs.Scene.Frame
import DomHost.Proofs.Scene.Nodes
import DomHost.Proofs.Store.Still

/-!
# Instructions that move nothing

An instruction for the contents of a node, or for its listeners, leaves every node where it is.

* `Scene.Still`: every node has the same way up as before;
* **`Scene.still_execute`**: instructions that move no node.
-/

namespace DomHost

namespace Instruction

/-- Does the instruction leave all nodes and ids where they are? -/
def isStill : Instruction → Bool
  | setAttribute .. | removeAttribute .. | toggleAttribute .. | setStyle .. | addListener .. |
    removeListener .. => true
  | setProperty _ property _ => !property.isContent
  | _ => false

theorem movesIds_of_isStill {i : Instruction} (hi : i.isStill = true) : i.movesIds = false := by
  cases i with
  | setProperty id property value => exact Bool.not_eq_true' _ ▸ hi
  | _ => first | rfl | exact absurd hi Bool.false_ne_true

end Instruction

namespace Scene

variable {κ : Type}

/-- Every node has the same way up as before. -/
def Still (s t : Scene κ) : Prop := s.store.Still t.store

/-- **An instruction for the contents of a node, or for its listeners, moves no node.** -/
theorem still_execute {i : Instruction} (hi : i.isStill = true) : Keeps (Still (κ := κ)) (execute i) := by
  have hS := Store.lasting_still
  have hL := lasting_onNodes (κ := κ) hS
  have hnode := onNodes_node (κ := κ) hS
  have hupdate := fun r f (_ : ∀ e : Element, e.Reattributed (f e)) => Store.still_updateElement r f
  cases i with
  | setAttribute id name value ns =>
    refine .bind hL (hnode id) fun r => ?_
    cases ns with
    | some ns => exact onNodes_onStore (Store.keeps_setAttributeNs hS (hupdate r) (some ns) name value)
    | none => exact onNodes_onStore (Store.still_setAttribute r name value)
  | removeAttribute id name ns =>
    exact .bind hL (hnode id) fun r => onNodes_onStore (Store.still_updateElement r _)
  | toggleAttribute id name force =>
    exact .bind hL (hnode id) fun r =>
      (onNodes_onStore (Store.keeps_toggleAttribute hS (hupdate r) name force)).discard
  | setStyle id property value =>
    exact .bind hL (hnode id) fun r => onNodes_onStore (Store.still_updateElement r _)
  | setProperty id property value =>
    refine .bind hL (hnode id) fun r => ?_
    have hset : ∀ {p : Property}, p ≠ .textContent → Keeps (OnNodes (κ := κ) Store.Still)
        (onDocument (Document.setProperty r p value)) := fun hp =>
      onNodes_onDocument (Document.still_setProperty r hp value)
    cases property with
    | innerHtml => exact absurd hi Bool.false_ne_true
    | textContent => exact absurd hi Bool.false_ne_true
    | className => exact hset (by decide)
    | value => exact hset (by decide)
    | checked => exact hset (by decide)
  | addListener id name c capture => exact .bind hL (hnode id) fun r => onNodes_listen hS r name c capture
  | removeListener id name c capture => exact .bind hL (hnode id) fun r => onNodes_unlisten hS r name c capture
  | _ => exact absurd hi Bool.false_ne_true

end Scene

end DomHost
