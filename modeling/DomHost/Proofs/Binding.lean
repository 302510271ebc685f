import DomHost.Binding
import Mathlib.Data.List.Nodup
import Mathlib.Data.Set.Card

/-!
# Bindings are one to one

An id has at most one node and a node at most one id, and what is written down for the ids is what is
written down for the nodes.

* `Bindings.OneToOne`: no id and no node comes twice, and both sides say the same;
* **`Bindings.OneToOne.get?_eq_some_iff_idOf?`**: both directions agree;
* `Bindings.OneToOne.bind`, `Bindings.OneToOne.release`: the edits keep this;
* `Bindings.get?_release`, `Bindings.OneToOne.get?_bind`: the node of an id after an edit;
* `Bindings.OneToOne.ncard_eq_count`: the ids that are bound are as many as the bindings;
* `Bindings.OneToOne.get?_bindAll`: ids that are bound one after the other.
-/

namespace DomHost.Bindings

/-- The nodes that are bound. -/
def nodes (b : Bindings) : List NodeRef := b.pairs.map (·.2)

/-- No id and no node comes twice, and the nodes have the ids that have the nodes. -/
structure OneToOne (b : Bindings) : Prop where
  ids : (b.pairs.map (·.1)).Nodup
  nodes : b.nodes.Nodup
  owners : b.owners.Perm (b.pairs.map Prod.swap)

variable {b : Bindings} {id : NodeId} {r : NodeRef}

theorem mem_pairs_of_get? (h : b.get? id = some r) : (id, r) ∈ b.pairs := by
  obtain ⟨⟨i, x⟩, hf, rfl⟩ := Option.map_eq_some_iff.mp h
  have hi : i = id := by simpa using List.find?_some hf
  exact hi ▸ List.mem_of_find?_eq_some hf

theorem mem_owners_of_idOf? (h : b.idOf? r = some id) : (r, id) ∈ b.owners := by
  obtain ⟨⟨x, i⟩, hf, rfl⟩ := Option.map_eq_some_iff.mp h
  have hx : x = r := by simpa using List.find?_some hf
  exact hx ▸ List.mem_of_find?_eq_some hf

theorem mem_nodes_of_get? (h : b.get? id = some r) : r ∈ b.nodes :=
  List.mem_map_of_mem (mem_pairs_of_get? h)

theorem get?_eq_none_iff : b.get? id = none ↔ id ∉ b.pairs.map (·.1) := by
  rw [get?, Option.map_eq_none_iff, List.find?_eq_none, List.mem_map]
  constructor
  · rintro h ⟨p, hp, rfl⟩
    exact h p hp (by simp)
  · intro h p hp he
    exact h ⟨p, hp, by simpa using he⟩

theorem idOf?_eq_none_iff_owners : b.idOf? r = none ↔ r ∉ b.owners.map (·.1) := by
  rw [idOf?, Option.map_eq_none_iff, List.find?_eq_none, List.mem_map]
  constructor
  · rintro h ⟨p, hp, rfl⟩
    exact h p hp (by simp)
  · intro h p hp he
    exact h ⟨p, hp, by simpa using he⟩

/-! ## Edits -/

theorem find?_filter_ne {l : List (NodeId × NodeRef)} {j : NodeId} (hj : j ≠ id) :
    (l.filter (·.1 != id)).find? (·.1 == j) = l.find? (·.1 == j) := by
  rw [List.find?_filter]
  congr 1
  funext p
  by_cases hp : p.1 = j
  · simp [hp, hj]
  · simp [hp]

theorem get?_release (b : Bindings) (id j : NodeId) :
    (b.release id).get? j = if j = id then none else b.get? j := by
  unfold release
  split
  · split
    · rename_i hj
      simp [get?, hj]
    · rename_i hj
      rw [get?, find?_filter_ne hj]
      rfl
  · split
    · rename_i hn hj
      rw [hj, hn]
    · rfl

theorem nodes_release_subset (b : Bindings) (id : NodeId) : (b.release id).nodes ⊆ b.nodes := by
  unfold release
  split
  · exact (List.filter_sublist.map _).subset
  · exact List.Subset.refl _

theorem nodes_insert_subset (b : Bindings) (id : NodeId) (r : NodeRef) :
    (b.insert id r).nodes ⊆ r :: b.nodes :=
  List.cons_subset_cons _ (List.filter_sublist.map _).subset

theorem nodes_bind_subset (b : Bindings) (id : NodeId) (r : NodeRef) :
    (b.bind id r).nodes ⊆ r :: b.nodes := by
  have hone : ∀ b' : Bindings, (b'.release id).nodes ⊆ b'.nodes := fun b' => b'.nodes_release_subset id
  unfold bind
  split
  · split
    · exact List.subset_cons_self r b.nodes
    · rename_i previous _ _
      have hsub := List.Subset.trans (hone (b.release previous)) (b.nodes_release_subset previous)
      exact List.Subset.trans (nodes_insert_subset _ id r) (List.cons_subset_cons r hsub)
  · exact List.Subset.trans (nodes_insert_subset _ id r) (List.cons_subset_cons r (hone b))

namespace OneToOne

theorem mem_owners_iff (h : b.OneToOne) : (r, id) ∈ b.owners ↔ (id, r) ∈ b.pairs := by
  rw [h.owners.mem_iff, List.mem_map]
  constructor
  · rintro ⟨p, hp, he⟩
    obtain ⟨rfl, rfl⟩ := Prod.mk.inj he
    exact hp
  · exact fun hp => ⟨(id, r), hp, rfl⟩

theorem perm_nodes (h : b.OneToOne) : (b.owners.map (·.1)).Perm b.nodes := by
  have hp := h.owners.map Prod.fst
  rw [List.map_map] at hp
  exact hp

theorem idOf?_eq_none_iff (h : b.OneToOne) : b.idOf? r = none ↔ r ∉ b.nodes := by
  rw [idOf?_eq_none_iff_owners, h.perm_nodes.mem_iff]

theorem get?_eq_some_iff (h : b.OneToOne) : b.get? id = some r ↔ (id, r) ∈ b.pairs := by
  refine ⟨mem_pairs_of_get?, fun hm => ?_⟩
  cases hg : b.get? id with
  | none => exact absurd (List.mem_map_of_mem hm) (get?_eq_none_iff.mp hg)
  | some x =>
    have he := List.inj_on_of_nodup_map h.ids (mem_pairs_of_get? hg) hm rfl
    rw [(Prod.mk.inj he).2]

theorem idOf?_eq_some_iff (h : b.OneToOne) : b.idOf? r = some id ↔ (id, r) ∈ b.pairs := by
  refine ⟨fun hi => h.mem_owners_iff.mp (mem_owners_of_idOf? hi), fun hm => ?_⟩
  cases hg : b.idOf? r with
  | none => exact absurd (List.mem_map_of_mem hm) (h.idOf?_eq_none_iff.mp hg)
  | some i =>
    have hi := h.mem_owners_iff.mp (mem_owners_of_idOf? hg)
    have he := List.inj_on_of_nodup_map h.nodes hi hm rfl
    rw [(Prod.mk.inj he).1]

/-- **An id has a node exactly if the node has the id.** -/
theorem get?_eq_some_iff_idOf? (h : b.OneToOne) : b.get? id = some r ↔ b.idOf? r = some id := by
  rw [h.get?_eq_some_iff, h.idOf?_eq_some_iff]

/-- No two ids are bound to one node. -/
theorem get?_injective (h : b.OneToOne) {j : NodeId} (hi : b.get? id = some r) (hj : b.get? j = some r) :
    id = j := by
  rw [h.get?_eq_some_iff_idOf?] at hi hj
  exact Option.some.inj (hi.symm.trans hj)

/-- The pair of an id is the pair of its node. -/
theorem filter_pairs (h : b.OneToOne) (hm : (id, r) ∈ b.pairs) :
    b.pairs.filter (·.1 != id) = b.pairs.filter (·.2 != r) := by
  refine List.filter_congr fun p hp => ?_
  have hiff : p.1 = id ↔ p.2 = r := by
    constructor
    · rintro rfl
      exact (Prod.mk.inj (List.inj_on_of_nodup_map h.ids hp hm rfl)).2
    · rintro rfl
      exact (Prod.mk.inj (List.inj_on_of_nodup_map h.nodes hp hm rfl)).1
  rw [Bool.eq_iff_iff, bne_iff_ne, bne_iff_ne, ne_eq, ne_eq, hiff]

theorem release (h : b.OneToOne) (id : NodeId) : (b.release id).OneToOne := by
  unfold Bindings.release
  split
  · rename_i r hr
    refine ⟨h.ids.sublist (List.filter_sublist.map _), h.nodes.sublist (List.filter_sublist.map _), ?_⟩
    have hp := h.owners.filter (·.1 != r)
    rw [List.filter_map] at hp
    rw [h.filter_pairs (mem_pairs_of_get? hr)]
    exact hp
  · exact h

theorem insert (h : b.OneToOne) (hid : id ∉ b.pairs.map (·.1)) (hr : r ∉ b.nodes) :
    (b.insert id r).OneToOne := by
  have hpairs : b.pairs.filter (·.1 != id) = b.pairs := by
    rw [List.filter_eq_self]
    intro p hp
    simpa using fun he : p.1 = id => hid (he ▸ List.mem_map_of_mem hp)
  have howners : b.owners.filter (·.1 != r) = b.owners := by
    rw [List.filter_eq_self]
    intro p hp
    simpa using fun he : p.1 = r => hr (he ▸ h.perm_nodes.mem_iff.mp (List.mem_map_of_mem hp))
  unfold Bindings.insert
  rw [hpairs, howners]
  exact ⟨List.nodup_cons.mpr ⟨hid, h.ids⟩, List.nodup_cons.mpr ⟨hr, h.nodes⟩, h.owners.cons _⟩

/-- An id is not bound after its release. -/
theorem notMem_ids_release (id : NodeId) (b : Bindings) : id ∉ (b.release id).pairs.map (·.1) := by
  unfold Bindings.release
  split
  · simp
  · exact get?_eq_none_iff.mp ‹_›

/-- A node is unbound with its id. -/
theorem notMem_nodes_release (h : b.OneToOne) (hr : b.idOf? r = some id) :
    r ∉ (b.release id).nodes := by
  have hg := h.get?_eq_some_iff_idOf?.mpr hr
  simp only [Bindings.release, hg]
  rw [Bindings.nodes, h.filter_pairs (mem_pairs_of_get? hg)]
  simp

theorem bind (h : b.OneToOne) (id : NodeId) (r : NodeRef) : (b.bind id r).OneToOne := by
  unfold Bindings.bind
  split
  · rename_i previous hp
    split
    · exact h
    · refine ((h.release previous).release id).insert (notMem_ids_release id _) fun hm => ?_
      exact h.notMem_nodes_release hp (nodes_release_subset _ id hm)
  · rename_i hn
    refine (h.release id).insert (notMem_ids_release id b) fun hm => ?_
    exact h.idOf?_eq_none_iff.mp hn (nodes_release_subset b id hm)

/-- **A new binding is seen from both sides.** -/
theorem get?_bind_self (h : b.OneToOne) (id : NodeId) (r : NodeRef) : (b.bind id r).get? id = some r := by
  unfold Bindings.bind
  split
  · rename_i previous hp
    split
    · rename_i he
      exact he ▸ h.get?_eq_some_iff_idOf?.mpr hp
    · simp [Bindings.get?, Bindings.insert]
  · simp [Bindings.get?, Bindings.insert]

/-! ## Reading after an edit -/

theorem get?_bind (h : b.OneToOne) (id : NodeId) (r : NodeRef) (j : NodeId) :
    (b.bind id r).get? j = if j = id then some r else if b.idOf? r = some j then none else b.get? j := by
  have hinsert : ∀ b' : Bindings, (b'.insert id r).get? j = if j = id then some r else b'.get? j := by
    intro b'
    by_cases hj : j = id
    · simp [Bindings.get?, Bindings.insert, hj]
    · rw [if_neg hj, Bindings.get?, Bindings.insert, List.find?_cons_of_neg (by simpa using Ne.symm hj),
        find?_filter_ne hj]
      rfl
  unfold Bindings.bind
  split
  · rename_i previous hp
    split
    · rename_i he
      subst he
      split
      · rename_i hj
        rw [hj]
        exact h.get?_eq_some_iff_idOf?.mpr hp
      · rename_i hj
        rw [if_neg fun he => hj (Option.some.inj (hp.symm.trans he)).symm]
    · rw [hinsert, get?_release, get?_release, hp]
      split
      · rfl
      · simp only [Option.some.injEq, eq_comm]
  · rename_i hn
    rw [hinsert, get?_release]
    split
    · rfl
    · rw [hn, if_neg (by simp)]

/-- After a release the other ids are bound as before. -/
theorem get?_release_eq_some_iff (h : b.OneToOne) (hr : b.idOf? r = some id) {j : NodeId} {x : NodeRef} :
    (b.release id).get? j = some x ↔ b.get? j = some x ∧ x ≠ r := by
  have hid := h.get?_eq_some_iff_idOf?.mpr hr
  rw [get?_release]
  split
  · rename_i hj
    subst hj
    rw [hid]
    simp [eq_comm]
  · rename_i hj
    refine (and_iff_left_of_imp fun hx he => hj ?_).symm
    rw [he, h.get?_eq_some_iff_idOf?, hr] at hx
    exact (Option.some.inj hx).symm

/-- **There are as many bindings as ids that are bound.** -/
theorem ncard_eq_count (h : b.OneToOne) : {id | (b.get? id).isSome}.ncard = b.count := by
  have hs : {id | (b.get? id).isSome} = ((b.pairs.map (·.1)).toFinset : Set NodeId) := by
    ext id
    rw [Set.mem_ofPred_eq, ← not_iff_not, Bool.not_eq_true, Option.isSome_eq_false_iff,
      Option.isNone_iff_eq_none, get?_eq_none_iff]
    simp
  have hcount := h.owners.length_eq
  rw [List.length_map] at hcount
  rw [hs, Set.ncard_coe_finset, List.toFinset_card_of_nodup h.ids, List.length_map, count, hcount]

end OneToOne

/-! ## Several bindings -/

/-- Binds ids to nodes, one after the other. -/
def bindAll (b : Bindings) (l : List (NodeId × NodeRef)) : Bindings := l.foldl (fun b e => b.bind e.1 e.2) b

namespace OneToOne

variable {l : List (NodeId × NodeRef)}

/-- An id keeps its node as long as neither of them is bound anew. -/
theorem get?_bindAll_of_notMem (h : b.OneToOne) (hget : b.get? id = some r) (hid : id ∉ l.map (·.1))
    (hr : r ∉ l.map (·.2)) : (b.bindAll l).get? id = some r := by
  induction l generalizing b with
  | nil => exact hget
  | cons e l ih =>
    rw [List.map_cons, List.mem_cons, not_or] at hid hr
    have hown : b.idOf? e.2 ≠ some id := fun he =>
      hr.1 (Option.some.inj (hget.symm.trans (h.get?_eq_some_iff_idOf?.mpr he)))
    refine ih (h.bind e.1 e.2) ?_ hid.2 hr.2
    rw [h.get?_bind, if_neg hid.1, if_neg hown, hget]

/-- **Ids that are bound to nodes, none of them twice, have these nodes.** -/
theorem get?_bindAll (h : b.OneToOne) (hids : (l.map (·.1)).Nodup) (hnodes : (l.map (·.2)).Nodup)
    {e : NodeId × NodeRef} (he : e ∈ l) : (b.bindAll l).get? e.1 = some e.2 := by
  induction l generalizing b with
  | nil => cases he
  | cons first l ih =>
    obtain ⟨hid, hids⟩ := List.nodup_cons.mp hids
    obtain ⟨hnode, hnodes⟩ := List.nodup_cons.mp hnodes
    rcases List.mem_cons.mp he with rfl | he
    · exact (h.bind e.1 e.2).get?_bindAll_of_notMem (h.get?_bind_self e.1 e.2) hid hnode
    · exact ih (h.bind first.1 first.2) hids hnodes he

theorem get?_bindAll_zip (h : b.OneToOne) {ids : List NodeId} {nodes : List NodeRef} (hids : ids.Nodup)
    (hnodes : nodes.Nodup) (hlen : nodes.length = ids.length) {e : NodeId × NodeRef} (he : e ∈ ids.zip nodes) :
    (b.bindAll (ids.zip nodes)).get? e.1 = some e.2 := by
  have hfst : (ids.zip nodes).map Prod.fst = ids := List.map_fst_zip hlen.ge
  have hsnd : (ids.zip nodes).map Prod.snd = nodes := List.map_snd_zip hlen.le
  rw [← hfst] at hids
  rw [← hsnd] at hnodes
  exact h.get?_bindAll hids hnodes he

end OneToOne

end DomHost.Bindings
