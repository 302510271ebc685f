import DomHost.Proofs.Scene.NewNodes
import DomHost.Proofs.Store.Gathering

/-!
# Insertions of several nodes

In front of a node, behind it and at the end of a parent, listed nodes gather in order, each once, and no other
node leaves its place.

* `Scene.nodes_of_get?`: ids that are all bound give their nodes;
* **`Scene.ends_appendChildren_gathers`**: the instruction that appends nodes;
* **`Scene.gathers_of_wellFormed`**: the three ways of inserting several nodes.
-/

namespace DomHost.Scene

variable {κ : Type} {s : Scene κ}

theorem node_of_get? {id : NodeId} {r : NodeRef} (h : s.bindings.get? id = some r) : node id s = .ok r s := by
  unfold node
  rw [get_bind_apply, h]
  rfl

theorem nodes_of_get? {ids : List NodeId} {rs : List NodeRef} (h : ids.map s.bindings.get? = rs.map some) :
    nodes ids s = .ok rs s := by
  induction ids generalizing rs with
  | nil =>
    obtain rfl : rs = [] := List.map_eq_nil_iff.mp h.symm
    rfl
  | cons id ids ih =>
    cases rs with
    | nil => exact absurd h (by simp)
    | cons r rs =>
      obtain ⟨hr, hrs⟩ := List.cons_eq_cons.mp h
      have htail : ids.mapM node s = .ok rs s := ih hrs
      unfold nodes
      rw [List.mapM_cons, bind_of_ok (node_of_get? hr), bind_of_ok htail]
      rfl

/-- **Nodes of ids are appended to the node of an id.** They come behind its other children; this succeeds just
if all ids are bound and each node may be put there. -/
theorem ends_appendChildren_gathers (h : s.store.WellFormed) (id : NodeId) (ids : List NodeId) :
    Ends (execute (.appendChildren id ids)) s
      (fun _ t => ∃ (p : NodeRef) (rs : List NodeRef), s.bindings.get? id = some p ∧
        ids.map s.bindings.get? = rs.map some ∧ (∀ c ∈ rs, s.store.Admits p c) ∧
        s.store.Gathers p rs (s.store.children p) [] t.store)
      fun _ => ∀ (p : NodeRef) (rs : List NodeRef), s.bindings.get? id = some p →
        ids.map s.bindings.get? = rs.map some → ∃ c ∈ rs, ¬ s.store.Admits p c := by
  refine ((ends_node s id).mono (fun _ _ hr => hr) fun _ hs p _ hp => ?_).bind ?_
  · rw [hs.2] at hp
    exact absurd hp (by simp)
  rintro p s ⟨rfl, hp⟩
  by_cases hids : ∃ rs : List NodeRef, ids.map s.bindings.get? = rs.map some
  · obtain ⟨rs, hrs⟩ := hids
    refine (Ends.of_eq (Q := fun l t => t = s ∧ l = rs) (nodes_of_get? hrs) ⟨rfl, rfl⟩).bind ?_
    rintro rs s ⟨rfl, rfl⟩
    have hloop := Store.ends_forM_gathers (g := Scene.store) (t := s) (p := p)
      (f := fun c => onDocument (Document.onStore (Store.appendChild p c))) rs none
      (fun c _ t ht _ => (ends_onStore t.over_self (ht.ends_insertBefore_anchor p c (by simp) (by simp))).mono
        (fun _ _ ho => ho.document.store) fun _ ho => ho.document.store.2)
      h (List.append_nil _).symm rfl (by simp)
    refine hloop.mono (fun _ t ht => ⟨p, rs, hp, hrs, ht⟩) fun _ hnot q ls hq hls => ?_
    obtain rfl := Option.some.inj (hp.symm.trans hq)
    obtain rfl := (List.map_injective_iff.mpr (Option.some_injective _)) (hrs.symm.trans hls)
    exact hnot
  · refine ((ends_nodes s ids).mono (fun rs _ hr => absurd ⟨rs, hr.2⟩ hids) fun _ _ _ rs _ hrs =>
      absurd ⟨rs, hrs⟩ hids).bind (R := fun _ _ => False) fun _ _ => False.elim

/-- **Listed nodes gather in front of a node, behind it, and at the end of a parent.** Nothing moves next to a
detached node. -/
theorem gathers_of_wellFormed (h : s.store.WellFormed) :
    (∀ (r p : NodeRef) (nodes front back : List NodeRef), s.store.children p = front ++ r :: back →
      Ends (Store.insertAllBefore r nodes) s.store
        (fun _ t => (∀ c ∈ nodes, s.store.Admits p c) ∧ s.store.Gathers p nodes front (r :: back) t)
        (fun _ => ∃ c ∈ nodes, ¬ s.store.Admits p c) ∧
      Ends (Store.insertAfter r nodes) s.store
        (fun _ t => (∀ c ∈ nodes, s.store.Admits p c) ∧ s.store.Gathers p nodes (front ++ [r]) back t)
        (fun _ => ∃ c ∈ nodes, ¬ s.store.Admits p c)) ∧
    (∀ (r : NodeRef) (nodes : List NodeRef), s.store.Live r → s.store.parent? r = none →
      Store.insertAllBefore r nodes s.store = .ok () s.store ∧
        Store.insertAfter r nodes s.store = .ok () s.store) ∧
    ∀ (id : NodeId) (ids : List NodeId), Ends (execute (.appendChildren id ids)) s
      (fun _ t => ∃ (p : NodeRef) (rs : List NodeRef), s.bindings.get? id = some p ∧
        ids.map s.bindings.get? = rs.map some ∧ (∀ c ∈ rs, s.store.Admits p c) ∧
        s.store.Gathers p rs (s.store.children p) [] t.store)
      fun _ => ∀ (p : NodeRef) (rs : List NodeRef), s.bindings.get? id = some p →
        ids.map s.bindings.get? = rs.map some → ∃ c ∈ rs, ¬ s.store.Admits p c :=
  ⟨fun _ _ nodes _ _ hc => ⟨h.ends_insertAllBefore_gathers nodes hc, h.ends_insertAfter_gathers nodes hc⟩,
    fun _ nodes hr hp => Store.insert_of_detached hr hp nodes, ends_appendChildren_gathers h⟩

/-- Three elements change places in all three ways, and a fourth that is detached stays by itself. -/
theorem exists_gathers : ∃ s : Scene Unit, s.store.WellFormed ∧ ∃ x y z w : NodeRef,
    s.store.children .root = [x] ++ y :: [z] ∧
    (∃ t, Store.insertAllBefore y [z, x, z] s.store = .ok () t ∧ s.store.Gathers .root [z, x, z] [x] [y, z] t ∧
      t.children .root = [x, z, y]) ∧
    (∃ t, Store.insertAfter y [y, x] s.store = .ok () t ∧ s.store.Gathers .root [y, x] [x, y] [z] t ∧
      t.children .root = [y, x, z]) ∧
    (∃ t, execute (.appendChildren ⟨0⟩ [⟨1⟩]) s = .ok () t ∧ s.store.Gathers .root [x] [x, y, z] [] t.store ∧
      t.store.children .root = [y, z, x]) ∧
    s.store.Live w ∧ s.store.parent? w = none ∧ Store.insertAllBefore w [x] s.store = .ok () s.store ∧
      Store.insertAfter w [x] s.store = .ok () s.store := by
  obtain ⟨s, h, hc, hp, hx, ⟨t, ht, hct⟩, ⟨u, hu, hcu⟩, ⟨v, hv, hcv⟩, hw, hwp⟩ : ∃ s : Scene Unit,
      s.store.WellFormed ∧ s.store.children .root = [.cell 1 0] ++ .cell 2 0 :: [.cell 3 0] ∧
      s.bindings.get? ⟨0⟩ = some .root ∧ [⟨1⟩].map s.bindings.get? = [.cell 1 0].map some ∧
      (∃ t, Store.insertAllBefore (.cell 2 0) [.cell 3 0, .cell 1 0, .cell 3 0] s.store = .ok () t ∧
        t.children .root = [.cell 1 0, .cell 3 0, .cell 2 0]) ∧
      (∃ t, Store.insertAfter (.cell 2 0) [.cell 2 0, .cell 1 0] s.store = .ok () t ∧
        t.children .root = [.cell 2 0, .cell 1 0, .cell 3 0]) ∧
      (∃ t, execute (.appendChildren ⟨0⟩ [⟨1⟩]) s = .ok () t ∧
        t.store.children .root = [.cell 2 0, .cell 3 0, .cell 1 0]) ∧
      (s.store.get? (.cell 4 0)).isSome = true ∧ s.store.parent? (.cell 4 0) = none :=
    ⟨{ document := { store := [Store.Operation.createElement "b", .createElement "i", .createElement "u",
          .createElement "s", .appendChild .root (.cell 1 0), .appendChild .root (.cell 2 0),
          .appendChild .root (.cell 3 0)].foldl Store.Operation.apply .new },
       bindings := (({} : Bindings).bind ⟨0⟩ .root).bind ⟨1⟩ (.cell 1 0) },
      Store.wellFormed_new.foldl_apply _, by decide +kernel, by decide +kernel, by decide +kernel,
      ⟨_, rfl, by decide +kernel⟩, ⟨_, rfl, by decide +kernel⟩, ⟨_, rfl, by decide +kernel⟩,
      by decide +kernel, by decide +kernel⟩
  obtain ⟨hside, hdetached, happend⟩ := gathers_of_wellFormed h
  have hbefore := (hside _ _ [.cell 3 0, .cell 1 0, .cell 3 0] _ _ hc).1
  have hafter := (hside _ _ [.cell 2 0, .cell 1 0] _ _ hc).2
  have hlive := Store.get?_isSome_iff.mp hw
  have hstays := hdetached _ [.cell 1 0] hlive hwp
  obtain ⟨p, rs, hp', hrs, -, hg⟩ := (happend ⟨0⟩ [⟨1⟩]).ok hv
  obtain rfl := Option.some.inj (hp.symm.trans hp')
  obtain rfl := List.map_injective_iff.mpr (Option.some_injective _) (hx.symm.trans hrs)
  rw [hc] at hg
  exact ⟨s, h, _, _, _, _, hc, ⟨t, ht, (hbefore.ok ht).2, hct⟩, ⟨u, hu, (hafter.ok hu).2, hcu⟩,
    ⟨v, hv, hg, hcv⟩, hlive, hwp, hstays⟩

end DomHost.Scene
