import DomHost.Proofs.Store.Operations
import Mathlib.Data.Set.Card

/-!
# Links between nodes

What a reader of the tree sees who only follows links from node to node: parent, first and last child,
next and previous sibling.

* `Chain`: what a link gives when it is followed to its end;
* **`Store.WellFormed.chain_nextSibling?`**, `Store.WellFormed.chain_parent?`: the children of a node and the way up;
* **`Store.WellFormed.live_of_link`**: links lead to live nodes;
* `Store.Operation`: the calls that build and change a tree, with any arguments;
* **`Store.WellFormed.foldl_apply`**: a store is well formed after any calls, also when some of these fail.
-/

namespace DomHost

/-! ## Following a link -/

/-- Following a link from a first value to its end gives a list. -/
inductive Chain {α : Type} (next : α → Option α) : Option α → List α → Prop
  | stop : Chain next none []
  | step {a : α} {l : List α} (h : Chain next (next a) l) : Chain next (some a) (a :: l)

namespace Chain

variable {α : Type} {next : α → Option α} {first : Option α} {l : List α}

theorem head?_eq (h : Chain next first l) : l.head? = first := by
  cases h <;> rfl

theorem unique (h : Chain next first l) {l' : List α} (h' : Chain next first l') : l = l' := by
  induction h generalizing l' with
  | stop =>
    cases h'
    rfl
  | step _ ih =>
    cases h' with
    | step h' => rw [ih h']

theorem behind {a : α} {front back : List α} (h : Chain next first (front ++ a :: back)) :
    Chain next (next a) back := by
  induction front generalizing first with
  | nil =>
    cases h with
    | step h => exact h
  | cons b front ih =>
    cases h with
    | step h => exact ih h

/-- **A link that comes to an end passes no value twice.** -/
theorem nodup (h : Chain next first l) : l.Nodup := by
  induction h with
  | stop => exact List.nodup_nil
  | @step a l h ih =>
    refine List.nodup_cons.mpr ⟨fun ha => ?_, ih⟩
    obtain ⟨front, back, rfl⟩ := List.append_of_mem ha
    have hl := congrArg List.length (h.unique h.behind)
    rw [List.length_append, List.length_cons] at hl
    omega

end Chain

namespace Store

variable {s : Store} {r p : NodeRef}

/-! ## Siblings -/

theorem dropWhile_ne {front back : List NodeRef} (h : r ∉ front) :
    (front ++ r :: back).dropWhile (· != r) = r :: back := by
  rw [List.dropWhile_append_of_pos fun x hx => by simpa using fun he : x = r => h (he ▸ hx)]
  simp

theorem takeWhile_ne {front back : List NodeRef} (h : r ∉ front) :
    (front ++ r :: back).takeWhile (· != r) = front := by
  rw [List.takeWhile_append_of_pos fun x hx => by simpa using fun he : x = r => h (he ▸ hx)]
  simp

namespace WellFormed

theorem following_eq (h : s.WellFormed) {front back : List NodeRef}
    (hc : s.children p = front ++ r :: back) : s.following r = back := by
  have hp : s.parent? r = some p := h.parent?_eq_some_iff.mpr (by simp [hc])
  have hn := h.nodup_children p
  rw [hc] at hn
  have hr : r ∉ front := fun hm => (List.nodup_append.mp hn).2.2 r hm r List.mem_cons_self rfl
  simp only [following, hp, hc, dropWhile_ne hr, List.tail_cons]

theorem preceding_eq (h : s.WellFormed) {front back : List NodeRef}
    (hc : s.children p = front ++ r :: back) : s.preceding r = front := by
  have hp : s.parent? r = some p := h.parent?_eq_some_iff.mpr (by simp [hc])
  have hn := h.nodup_children p
  rw [hc] at hn
  have hr : r ∉ front := fun hm => (List.nodup_append.mp hn).2.2 r hm r List.mem_cons_self rfl
  simp only [preceding, hp, hc, takeWhile_ne hr]

/-- The children of a node, from the first to the next. -/
theorem chain_nextSibling? (h : s.WellFormed) (p : NodeRef) :
    Chain s.nextSibling? (s.firstChild? p) (s.children p) := by
  suffices H : ∀ back front, s.children p = front ++ back →
      Chain s.nextSibling? back.head? back from H _ [] rfl
  intro back
  induction back with
  | nil => exact fun _ _ => .stop
  | cons r back ih =>
    intro front hc
    have hnext : s.nextSibling? r = back.head? := by rw [nextSibling?, h.following_eq hc]
    refine .step ?_
    rw [hnext]
    exact ih (front ++ [r]) (by rw [hc, List.append_assoc, List.singleton_append])

/-- The children of a node, from the last to the one before. -/
theorem chain_previousSibling? (h : s.WellFormed) (p : NodeRef) :
    Chain s.previousSibling? (s.lastChild? p) (s.children p).reverse := by
  suffices H : ∀ front back, s.children p = front.reverse ++ back →
      Chain s.previousSibling? front.head? front by
    have hc := H (s.children p).reverse [] (by simp)
    rwa [List.head?_reverse] at hc
  intro front
  induction front with
  | nil => exact fun _ _ => .stop
  | cons r front ih =>
    intro back hc
    rw [List.reverse_cons, List.append_assoc, List.singleton_append] at hc
    have hprev : s.previousSibling? r = front.head? := by
      rw [previousSibling?, h.preceding_eq hc, List.getLast?_reverse]
    refine .step ?_
    rw [hprev]
    exact ih (r :: back) hc

theorem chain_of_climbs (h : s.WellFormed) {path : List Node} (hc : s.forest.Climbs path) :
    Chain s.parent? (path.head?.map (·.ref)) (path.map (·.ref)) := by
  induction hc with
  | @top a ha =>
    refine .step ?_
    rw [h.parent?_root ha]
    exact .stop
  | @up a b c path hb ha _ ih =>
    have hp : s.parent? a.ref = some b.ref := by
      rw [h.parent?_eq_some_iff, children_of_tree? (h.tree?_eq_some hb)]
      exact List.mem_map_of_mem ha
    refine .step ?_
    rw [hp]
    exact ih

/-- The way up from a node, from parent to parent. -/
theorem chain_parent? (h : s.WellFormed) (hr : s.Live r) :
    Chain s.parent? (some r) (s.ancestors r) := by
  obtain ⟨n, path, hc, rfl, ha⟩ := exists_climb hr
  rw [ha]
  exact h.chain_of_climbs hc

end WellFormed

/-! ## Live nodes -/

namespace WellFormed

theorem ncard_live (h : s.WellFormed) : {r | s.Live r}.ncard = s.len := by
  have hs : {r | s.Live r} = (s.refs.toFinset : Set NodeRef) := by
    ext r
    simp [Live]
  rw [hs, Set.ncard_coe_finset, List.toFinset_card_of_nodup h.nodup]
  exact h.cells.length

/-- A sibling has the same parent. -/
theorem sibling (h : s.WellFormed) {x : NodeRef}
    (hx : s.nextSibling? r = some x ∨ s.previousSibling? r = some x) :
    ∃ p, s.parent? r = some p ∧ r ∈ s.children p ∧ x ∈ s.children p := by
  cases hp : s.parent? r with
  | none => simp [nextSibling?, previousSibling?, following, preceding, hp] at hx
  | some p =>
    have hr := h.parent?_eq_some_iff.mp hp
    refine ⟨p, rfl, hr, ?_⟩
    obtain ⟨front, back, hc⟩ := List.append_of_mem hr
    rw [nextSibling?, previousSibling?, h.following_eq hc, h.preceding_eq hc] at hx
    rw [hc]
    rcases hx with hx | hx
    · exact List.mem_append_right _ (List.mem_cons_of_mem _ (List.mem_of_head? hx))
    · exact List.mem_append_left _ (List.mem_of_getLast? hx)

/-- **A link leads from a live node to a live node.** -/
theorem live_of_link (h : s.WellFormed) {x : NodeRef}
    (hx : s.parent? r = some x ∨ s.firstChild? r = some x ∨ s.lastChild? r = some x ∨
      s.nextSibling? r = some x ∨ s.previousSibling? r = some x) : s.Live r ∧ s.Live x := by
  rcases hx with hx | hx | hx | hx
  · exact (live_of_child (h.parent?_eq_some_iff.mp hx)).symm
  · exact live_of_child (List.mem_of_head? hx)
  · exact live_of_child (List.mem_of_getLast? hx)
  · obtain ⟨p, -, hr, hx⟩ := h.sibling hx
    exact ⟨(live_of_child hr).2, (live_of_child hx).2⟩

end WellFormed

/-! ## Calls -/

/-- A call that builds or changes the tree, with any arguments. A node that is inserted as it is is not
the document. -/
inductive Operation where
  | createElement (tag : String)
  | createElementNs (ns : Option String) (name : String)
  | createText (text : String)
  | createComment (text : String)
  | insertNode (data : NodeData) (h : data.isDocument = false)
  | appendChild (parent child : NodeRef)
  | insertBefore (parent child : NodeRef) (reference : Option NodeRef)
  | removeChild (parent child : NodeRef)
  | insertAfter (reference : NodeRef) (nodes : List NodeRef)
  | insertAllBefore (reference : NodeRef) (nodes : List NodeRef)
  | replaceWith (old : NodeRef) (nodes : List NodeRef)
  | detach (r : NodeRef)
  | clearChildren (r : NodeRef)
  | cloneSubtree (r : NodeRef)
  | freeSubtree (r : NodeRef)
  | setTextContent (r : NodeRef) (text : String)

namespace Operation

/-- Carries out a call; what it returns is not looked at. -/
def run : Operation → StoreM Unit
  | createElement tag => discard (Store.createElement tag)
  | createElementNs ns name => discard (Store.createElementNs ns name)
  | createText text => discard (Store.createText text)
  | createComment text => discard (Store.createComment text)
  | insertNode data _ => discard (modifyGet (·.create data) : StoreM NodeRef)
  | appendChild parent child => Store.appendChild parent child
  | insertBefore parent child reference => Store.insertBefore parent child reference
  | removeChild parent child => Store.removeChild parent child
  | insertAfter reference nodes => Store.insertAfter reference nodes
  | insertAllBefore reference nodes => Store.insertAllBefore reference nodes
  | replaceWith old nodes => Store.replaceWith old nodes
  | detach r => Store.detach r
  | clearChildren r => Store.clearChildren r
  | cloneSubtree r => discard (Store.cloneSubtree r)
  | freeSubtree r => discard (Store.freeSubtree r)
  | setTextContent r text => Store.setTextContent r text

/-- The store after a call, whether it succeeded or failed. -/
def apply (s : Store) (o : Operation) : Store :=
  match o.run s with
  | .ok _ s => s
  | .error _ s => s

/-- **A call keeps a store well formed, whether it succeeds or fails.** -/
theorem ends_run (o : Operation) (h : s.WellFormed) :
    Ends o.run s (fun _ s => s.WellFormed) fun s => s.WellFormed := by
  have hg := h.guards
  have hn : ∀ r : NodeRef, r ∉ refsOf [] := by simp [refsOf]
  suffices hk : Ends o.run s (fun _ => Guards [] []) (Guards [] []) from
    hk.mono (fun _ _ h => h.wellFormed) fun _ h => h.wellFormed
  have hforget : ∀ {α : Type} {x : StoreM α} {Q : α → Store → Prop},
      (∀ a s, Q a s → s.Guards [] []) → Ends x s Q (Guards [] []) →
      Ends (discard x) s (fun _ => Guards [] []) (Guards [] []) := fun hq hx =>
    hx.discard.mono (fun _ s hs => hs.elim fun a ha => hq a s ha) fun _ he => he
  have hnew : ∀ (r : NodeRef) (s : Store), s.Guards [] [r] ∧ r ∉ refsOf [] → s.Guards [] [] :=
    fun r s h => h.1.weaken (List.Subset.refl _) (List.nil_subset _)
  cases o with
  | createElement tag => exact hforget hnew (hg.create rfl)
  | createElementNs ns name => exact hforget hnew (hg.createElementNs ns name)
  | createText text => exact hforget hnew (hg.create rfl)
  | createComment text => exact hforget hnew (hg.create rfl)
  | insertNode data hd => exact hforget hnew (hg.create hd)
  | appendChild parent child => exact hg.insertBefore (hn _) (hn _) none
  | insertBefore parent child reference => exact hg.insertBefore (hn _) (hn _) reference
  | removeChild parent child => exact hg.removeChild (hn _)
  | insertAfter reference nodes => exact hg.insertAfter (hn _) fun r _ => hn r
  | insertAllBefore reference nodes => exact hg.insertAllBefore (hn _) fun r _ => hn r
  | replaceWith old nodes => exact hg.replaceWith (hn _) fun r _ => hn r
  | detach r => exact hg.detach (hn _)
  | clearChildren r => exact hg.clearChildren (hn _)
  | cloneSubtree r => exact hforget hnew hg.cloneSubtree
  | freeSubtree r =>
    have hf := hg.freeSubtree (hn r) (by simp)
    exact hforget (fun _ _ h => h.1) (hf.mono (fun _ _ h => h) fun _ he => he ▸ hg)
  | setTextContent r text => exact hg.setTextContent (hn _) text

theorem wellFormed_apply (o : Operation) (h : s.WellFormed) : (apply s o).WellFormed := by
  have he := o.ends_run h
  unfold Ends at he
  unfold apply
  cases hr : o.run s <;> rw [hr] at he <;> exact he

end Operation

/-- **Calls keep a store well formed**, whether they succeed or fail. -/
theorem WellFormed.foldl_apply (h : s.WellFormed) (os : List Operation) :
    (os.foldl Operation.apply s).WellFormed := by
  induction os generalizing s with
  | nil => exact h
  | cons o os ih => exact ih (o.wellFormed_apply h)

end Store

end DomHost
