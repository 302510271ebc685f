import DomHost.Proofs.Arena.Operations

/-!
# Links that agree

A tree kept as cells with links is well formed when the links agree with each other: the five links of each node say
the same about the order of children, no link leads to a cell that was emptied, and no node is below itself. No
operation breaks this, whatever its arguments are and wherever it fails.

* `Arena.Linked`: the links of an arena agree, said of the links alone;
* **`Arena.Depicts.linked`**: links that depict a tree agree;
* `Arena.Call`: the calls that build and change the links, with any arguments;
* **`Arena.Call.depicts_apply`**, **`Arena.depicts_foldl_apply`**: links depict a tree after one call and after any
  calls, also when some of these fail;
* **`Arena.linked_foldl_apply`**: the links of a new arena agree after any calls.
-/

namespace DomHost

/-- The five links of a node. -/
def LinkedNode.links (n : LinkedNode) : List NodeRef :=
  [n.parent, n.firstChild, n.lastChild, n.previousSibling, n.nextSibling]

namespace Arena

/-- A reference names a node that is there. -/
def Live (a : Arena) (r : NodeRef) : Prop := (a.get? r).isSome

/-- The links of an arena agree with each other, and the free cells are those that hold no node. -/
structure Linked (a : Arena) : Prop where
  /-- From the first child to the next and from the last to the one before the same nodes are passed, none of them
  twice, and these are the live nodes that have the given one as their parent. -/
  children : ∀ p, ∃ l, Chain a.nextSibling? (a.firstChild? p) l ∧ Chain a.previousSibling? (a.lastChild? p) l.reverse ∧
    l.Nodup ∧ ∀ r, r ∈ l ↔ a.Live r ∧ a.parent? r = some p
  /-- A node without parent has no siblings. -/
  siblings : ∀ r n, a.get? r = some n → n.parent = .nowhere → n.previousSibling = .nowhere ∧ n.nextSibling = .nowhere
  /-- A link leads to a node that is there, or nowhere. -/
  live : ∀ r n, a.get? r = some n → ∀ x ∈ n.links, x = .nowhere ∨ a.Live x
  /-- The way up from a node comes to an end. -/
  parents : ∀ r, a.Live r → ∃ l, Chain a.parent? (some r) l
  /-- Only elements and the document have children. -/
  containers : ∀ p n, a.get? p = some n → n.firstChild ≠ .nowhere ∨ n.lastChild ≠ .nowhere →
    (∃ e, n.data = .element e) ∨ n.data = .document
  document : ∃ n, a.get? .root = some n ∧ n.data = .document ∧ n.parent = .nowhere
  free : a.free.Nodup ∧ ∀ i, i ∈ a.free ↔ ∃ slot, a.slots[i]? = some slot ∧ slot.node = none
  len : a.len = {r | a.Live r}.ncard

variable {a : Arena} {s : Store} {r p : NodeRef}

namespace Depicts

theorem free_eq (h : a.Depicts s) : a.free = s.cells.free := congrArg Cells.free h.cells

/-- The free cells of an arena are those that hold no node. -/
theorem mem_free_iff (h : a.Depicts s) (i : Nat) : i ∈ a.free ↔ ∃ slot, a.slots[i]? = some slot ∧ slot.node = none := by
  have hlive : ∀ g, .cell i g ∉ s.refs ↔ a.get? (.cell i g) = none := fun g => by
    rw [← Option.not_isSome_iff_eq_none, h.isSome_iff, Store.Live]
  have hsize : a.slots.size = s.cells.generations.size := h.capacity
  rw [h.free_eq, h.wellFormed.cells.mem_free, ← hsize]
  simp only [hlive, get?_cell]
  constructor
  · rintro ⟨hi, hg⟩
    refine ⟨a.slots[i], Array.getElem?_eq_getElem hi, ?_⟩
    simpa [Array.getElem?_eq_getElem hi] using hg a.slots[i].generation
  · rintro ⟨slot, hslot, hnode⟩
    obtain ⟨hi, -⟩ := Array.getElem?_eq_some_iff.mp hslot
    exact ⟨hi, fun g => by simp [hslot, hnode]⟩

theorem exists_linkedNode {n : LinkedNode} (h : a.Depicts s) (hn : a.get? r = some n) :
    ∃ d, s.get? r = some d ∧ n = s.linkedNode r d := by
  rw [h.get?] at hn
  obtain ⟨d, hd, rfl⟩ := Option.map_eq_some_iff.mp hn
  exact ⟨d, hd, rfl⟩

/-- **Links that depict a tree agree.** -/
theorem linked (h : a.Depicts s) : a.Linked where
  children p := by
    have hs := h.wellFormed
    have hforth := hs.chain_nextSibling? p
    have hback := hs.chain_previousSibling? p
    rw [← funext h.nextSibling?, ← h.firstChild?] at hforth
    rw [← funext h.previousSibling?, ← h.lastChild?] at hback
    refine ⟨s.children p, hforth, hback, hs.nodup_children p, fun r => ?_⟩
    rw [Live, h.isSome_iff, h.parent?, hs.parent?_eq_some_iff]
    exact ⟨fun hr => ⟨(Store.live_of_child hr).2, hr⟩, And.right⟩
  siblings r n hn hp := by
    obtain ⟨d, -, rfl⟩ := h.exists_linkedNode hn
    have hparent : s.parent? r = none := by
      cases hq : s.parent? r with
      | none => rfl
      | some q =>
        rw [Store.linkedNode, hq] at hp
        exact absurd hp (ne_nowhere h.wellFormed (h.wellFormed.parent?_isSome hq).2)
    obtain ⟨hnext, hprevious⟩ := Store.siblings_of_detached hparent
    simp [Store.linkedNode, hnext, hprevious]
  live r n hn x hx := by
    obtain ⟨d, -, rfl⟩ := h.exists_linkedNode hn
    have hlink : ∀ o : Option NodeRef, (∀ y ∈ o, s.Live y) → o.getD .nowhere = .nowhere ∨ a.Live (o.getD .nowhere) := by
      rintro (_ | y) ho
      · exact .inl rfl
      · exact .inr (h.isSome_iff.mpr (ho y rfl))
    have hto := fun x hx => (h.wellFormed.live_of_link (r := r) (x := x) hx).2
    simp only [LinkedNode.links, Store.linkedNode, List.mem_cons, List.not_mem_nil, or_false] at hx
    rcases hx with rfl | rfl | rfl | rfl | rfl
    · exact hlink _ fun y hy => hto y (.inl hy)
    · exact hlink _ fun y hy => hto y (.inr (.inl hy))
    · exact hlink _ fun y hy => hto y (.inr (.inr (.inl hy)))
    · exact hlink _ fun y hy => hto y (.inr (.inr (.inr (.inr hy))))
    · exact hlink _ fun y hy => hto y (.inr (.inr (.inr (.inl hy))))
  parents r hr := by
    have hchain := h.wellFormed.chain_parent? (h.isSome_iff.mp hr)
    rw [← funext h.parent?] at hchain
    exact ⟨s.ancestors r, hchain⟩
  containers p n hn hc := by
    obtain ⟨d, hd, rfl⟩ := h.exists_linkedNode hn
    obtain ⟨x, hx⟩ : ∃ x, x ∈ s.children p := by
      refine List.exists_mem_of_ne_nil _ fun hnil => ?_
      simp [Store.linkedNode, Store.firstChild?, Store.lastChild?, hnil] at hc
    obtain ⟨d', hd', hcontainer⟩ := h.wellFormed.container_of_child hx
    rw [← Option.some.inj (hd.symm.trans hd')] at hcontainer
    exact NodeData.isContainer_iff.mp hcontainer
  document := by
    have hroot : s.get? .root = some .document :=
      h.wellFormed.get?_eq_some_iff.mpr (Forest.mem_toList_of_mem_roots h.wellFormed.document)
    refine ⟨_, h.get?_of_some hroot, rfl, ?_⟩
    rw [Store.linkedNode, h.wellFormed.parent?_document]
    rfl
  free := ⟨h.free_eq ▸ h.wellFormed.cells.free_nodup, h.mem_free_iff⟩
  len := by
    have hlive : {r | a.Live r} = {r | s.Live r} := Set.ext fun r => h.isSome_iff
    have hsize : a.slots.size = s.cells.generations.size := h.capacity
    rw [hlive, h.wellFormed.ncard_live, Arena.len, Store.len, h.free_eq, hsize]

end Depicts

/-! ## Calls -/

/-- A call that builds or changes the links, with any arguments. A node that is inserted as it is may come with any
links, and is not the document. -/
inductive Call where
  | edit (o : Store.Operation)
  | insertNode (n : LinkedNode) (h : n.data.isDocument = false)

namespace Call

/-- Carries out a call; what it returns is not looked at. -/
def run : Call → ArenaM Unit
  | edit (.createElement tag) => discard (Arena.createElement tag)
  | edit (.createElementNs ns name) => discard (Arena.createElementNs ns name)
  | edit (.createText text) => discard (Arena.createText text)
  | edit (.createComment text) => discard (Arena.createComment text)
  | edit (.insertNode data _) => discard (Arena.insertNode { data })
  | edit (.appendChild parent child) => Arena.appendChild parent child
  | edit (.insertBefore parent child reference) => Arena.insertBefore parent child reference
  | edit (.removeChild parent child) => Arena.removeChild parent child
  | edit (.insertAfter reference nodes) => Arena.insertAfter reference nodes
  | edit (.insertAllBefore reference nodes) => Arena.insertAllBefore reference nodes
  | edit (.replaceWith old nodes) => Arena.replaceWith old nodes
  | edit (.detach r) => Arena.detach r
  | edit (.clearChildren r) => Arena.clearChildren r
  | edit (.cloneSubtree r) => discard (Arena.cloneSubtree r)
  | edit (.freeSubtree r) => discard (Arena.freeSubtree r)
  | edit (.setTextContent r text) => Arena.setTextContent r text
  | insertNode n _ => discard (Arena.insertNode n)

/-- The arena after a call, whether it succeeded or failed. -/
def apply (a : Arena) (c : Call) : Arena :=
  match c.run a with
  | .ok _ a => a
  | .error _ a => a

/-- The call on the tree that goes with one on the links. -/
def operation : Call → Store.Operation
  | edit o => o
  | insertNode n h => .insertNode n.data h

/-- **A call goes side by side with the one on the tree.** -/
theorem abreast_run (c : Call) (h : a.Depicts s) : Abreast Depicts c.run a c.operation.run s := by
  cases c with
  | insertNode n hn => exact (h.push hn).discard
  | edit o =>
    cases o with
    | createElement tag => exact (h.push rfl).discard
    | createElementNs ns name => exact (h.createElementNs ns name).discard
    | createText text => exact (h.push rfl).discard
    | createComment text => exact (h.push rfl).discard
    | insertNode data hd => exact (h.push hd).discard
    | appendChild parent child => exact h.appendChild parent child
    | insertBefore parent child reference => exact h.insertBefore parent child reference
    | removeChild parent child => exact h.removeChild parent child
    | insertAfter reference nodes => exact h.insertAfter reference nodes
    | insertAllBefore reference nodes => exact h.insertAllBefore reference nodes
    | replaceWith old nodes => exact h.replaceWith old nodes
    | detach r => exact h.detach r
    | clearChildren r => exact h.clearChildren r
    | cloneSubtree r => exact (h.cloneSubtree r).discard
    | freeSubtree r => exact (h.freeSubtree r).discard
    | setTextContent r text => exact h.setTextContent r text

/-- **A call keeps the links in step with the tree, whether it succeeds or fails.** -/
theorem depicts_apply (c : Call) (h : a.Depicts s) : (apply a c).Depicts (Store.Operation.apply s c.operation) := by
  have hrun := c.abreast_run h
  unfold Abreast at hrun
  unfold apply Store.Operation.apply
  cases hc : c.run a with
  | ok u b =>
    rw [hc] at hrun
    obtain ⟨t, ht, hdepicts⟩ := hrun.of_ok
    rwa [ht]
  | error e b =>
    rw [hc] at hrun
    obtain ⟨t, ht, hdepicts⟩ := hrun.of_error
    rwa [ht]

end Call

/-- Calls keep the links in step with the tree. -/
theorem depicts_foldl_apply (h : a.Depicts s) (cs : List Call) :
    (cs.foldl Call.apply a).Depicts ((cs.map Call.operation).foldl Store.Operation.apply s) := by
  induction cs generalizing a s with
  | nil => exact h
  | cons c cs ih => exact ih (c.depicts_apply h)

/-- **The links of a new arena agree after any calls**, whether they succeed or fail. -/
theorem linked_foldl_apply (cs : List Call) : (cs.foldl Call.apply .new).Linked :=
  (depicts_foldl_apply depicts_new cs).linked

/-- A child that is inserted in front of itself keeps its place, and no node is let in below itself. -/
example :
    let a := [.edit (.createElement "p"), .edit (.createComment "a"), .edit (.createComment "b"),
      .edit (.appendChild (.cell 1 0) (.cell 2 0)), .edit (.appendChild (.cell 1 0) (.cell 3 0)),
      .edit (.insertBefore (.cell 1 0) (.cell 2 0) (some (.cell 2 0))),
      .edit (.appendChild (.cell 1 0) (.cell 1 0))].foldl Call.apply Arena.new
    a.children (.cell 1 0) = [.cell 2 0, .cell 3 0] ∧ a.lastChild? (.cell 1 0) = some (.cell 3 0) ∧
      a.previousSibling? (.cell 3 0) = some (.cell 2 0) ∧ a.parent? (.cell 1 0) = none := by
  decide +kernel

end Arena

end DomHost
