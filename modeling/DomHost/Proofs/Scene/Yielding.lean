import DomHost.Proofs.Callback.Dropped
import DomHost.Proofs.Scene.TextContent
import DomHost.Proofs.Store.Handles

/-!
# Trees that lose their last id

An id that moves to another node may leave a tree behind that no id reaches. Such a tree is given up, and all
else in the scene is as if the id had only been tied to its new node.

* `Scene.SameBut`: the same tables but for some nodes that are gone with their listeners;
* `Scene.tied`, `Scene.freed`: a scene with an id tied to a node, and without a tree;
* **`Scene.sameBut_freed`**: a tree without ids is freed, and nothing else changes;
* `Scene.Strands`: the tree that an id would leave behind;
* **`Scene.bind_eq`**, **`Scene.yielded_create`**: an id that moves to a new node leaves this tree behind.
-/

namespace DomHost

namespace Scene

variable {κ : Type} {s t : Scene κ} {r old x : NodeRef} {id : NodeId}

/-! ## A tree without ids -/

/-- The scene `t` is the scene `s`, but some nodes are gone with their listeners. The other nodes have the same
data and links, and the ids, the other listeners and the counts of closures agree. -/
structure SameBut (gone : List NodeRef) (s t : Scene κ) : Prop where
  data : ∀ x, t.store.get? x = if x ∈ gone then none else s.store.get? x
  parent? : ∀ x, x ∉ gone → t.store.parent? x = s.store.parent? x
  children : ∀ x, x ∉ gone → t.store.children x = s.store.children x
  nodes : ∀ id, t.bindings.get? id = s.bindings.get? id
  ids : ∀ x, t.bindings.idOf? x = s.bindings.idOf? x
  listeners : ∀ x, t.document.listeners.ofNode x = if x ∈ gone then [] else s.document.listeners.ofNode x
  /-- Listeners that are gone are not counted any more. -/
  counts : ∀ c, t.callbacks.count c = s.callbacks.count c - s.document.listeners.usesAt gone c

theorem SameBut.refl (s : Scene κ) : s.SameBut [] s :=
  ⟨fun _ => rfl, fun _ _ => rfl, fun _ _ => rfl, fun _ => rfl, fun _ => rfl, fun _ => rfl, fun _ => rfl⟩

/-- A scene in which an id is tied to a node. -/
def tied (s : Scene κ) (id : NodeId) (r : NodeRef) : Scene κ := { s with bindings := s.bindings.bind id r }

/-- A scene without a tree, its ids and its listeners. -/
def freed (s : Scene κ) (r : NodeRef) : Scene κ :=
  ((s.store.descendants r).foldl strip s).withStore (s.store.without r)

theorem bindings_foldl_strip {rs : List NodeRef} (h : ∀ x ∈ rs, s.bindings.idOf? x = none) :
    (rs.foldl strip s).bindings = s.bindings := by
  induction rs generalizing s with
  | nil => rfl
  | cons r rs ih =>
    obtain ⟨hr, hrs⟩ := List.forall_mem_cons.mp h
    rcases s.strip_bindings r with ⟨-, hsame⟩ | ⟨id, hid, -⟩
    · exact (ih (hsame ▸ hrs)).trans hsame
    · exact absurd (hr.symm.trans hid) (by simp)

/-- **A detached tree without ids is freed with its listeners, and nothing else changes.** -/
theorem sameBut_freed (h : s.document.Whole) (ho : ∀ l ∈ s.document.listeners.installed, Ours l)
    (hr : s.isOrphan r = true) : s.SameBut (s.store.descendants r) (s.freed r) := by
  have hw : s.store.WellFormed := h.store
  obtain ⟨hne, -, hp, hids⟩ := (isOrphan_iff hw).mp hr
  replace hids : ∀ x ∈ s.store.descendants r, s.bindings.idOf? x = none := fun x hx =>
    hids x (hw.mem_descendants_iff.mp hx)
  have hbindings : (s.freed r).bindings = s.bindings := bindings_foldl_strip hids
  have hlisteners : (s.freed r).document.listeners = s.document.listeners.clear (s.store.descendants r) := by
    rw [freed, withStore, document_foldl_strip]
  have hn := hw.distinct.nodup_descendants r
  refine ⟨fun x => ?_, fun x hx => ?_, fun x hx => ?_, fun id => ?_, fun x => ?_, fun x => ?_, fun c => ?_⟩
  · change (s.store.without r).get? x = _
    split_ifs with hx
    · rw [← Option.not_isSome_iff_eq_none, Store.get?_isSome_iff]
      exact fun hl => (hw.distinct.live_without.mp hl).2 hx
    · exact Store.Distinct.get?_without hw.distinct hx
  · exact congrArg (·[1]?) (hw.ancestors_without hne hx)
  · have hnot : s.store.parent? r ≠ some x := by simp [hp]
    exact (hw.children_without hx).trans (hw.filter_children hnot)
  · rw [hbindings]
  · rw [hbindings]
  · rw [hlisteners, h.listeners.ofNode_clear]
  · exact count_foldl_strip h.listeners ho hn c

/-! ## An id that moves -/

/-- The tree of a node would be left without ids by an id that moves: the id is bound to the node, which is at
the top of a detached tree, and no node of the tree has another id. -/
structure Strands (s : Scene κ) (id : NodeId) (old : NodeRef) : Prop where
  bound : s.bindings.get? id = some old
  ne_root : old ≠ .root
  live : s.store.Live old
  detached : s.store.parent? old = none
  alone : ∀ x ∈ s.store.descendants old, ∀ j ∈ s.bindings.idOf? x, j = id

/-- **An id is tied to a node, and the tree that is left behind is freed.** -/
theorem bind_eq (h : s.document.Whole) (id : NodeId) (r : NodeRef) :
    bind id r s = .ok () ((s.yielded id r).elim (s.tied id r) (s.tied id r).freed) := by
  have htie : tie id r s = .ok () (s.tied id r) := rfl
  unfold bind
  rw [get_bind_apply, bind_of_ok htie]
  cases hp : (s.bindings.get? id).filter (· != r) with
  | none =>
    have hy : s.yielded id r = none := by
      rw [yielded, ← Option.filter_filter, hp]
      rfl
    rw [hy]
    rfl
  | some old =>
    have hy : s.yielded id r = (some old).filter (s.tied id r).isOrphan := by
      rw [yielded, ← Option.filter_filter, hp]
      rfl
    have hreclaim : reclaim old (s.tied id r) =
        .ok () (if (s.tied id r).isOrphan old then (s.tied id r).freed old else s.tied id r) := by
      unfold reclaim
      rw [get_bind_apply]
      split_ifs with ho
      · obtain ⟨hne, hl, -⟩ := (isOrphan_iff (s := s.tied id r) h.store).mp ho
        exact releaseSubtree_eq (s := s.tied id r) h hl hne
      · rfl
    change reclaim old (s.tied id r) = _
    rw [hreclaim, hy]
    split_ifs with ho
    · rw [Option.filter_some_pos ho]
      rfl
    · rw [Option.filter_some_neg (by simpa using ho)]
      rfl

theorem isOrphan_of_yielded (h : s.yielded id r = some old) : (s.tied id r).isOrphan old = true := by
  have hboth := (Option.filter_eq_some_iff.mp h).2
  rw [Bool.and_eq_true] at hboth
  exact hboth.2

/-- A node that an id does not move to has no id just if it had no other one. -/
theorem idOf?_bind_eq_none_iff {b : Bindings} (hb : b.OneToOne) (hx : x ≠ r) :
    (b.bind id r).idOf? x = none ↔ ∀ j ∈ b.idOf? x, j = id := by
  have hget : ∀ j, (b.bind id r).get? j = some x ↔ j ≠ id ∧ b.get? j = some x := by
    intro j
    rw [hb.get?_bind]
    split_ifs with hj hr
    · exact iff_of_false (fun he => hx (Option.some.inj he).symm) fun hn => hn.1 hj
    · rw [← hb.get?_eq_some_iff_idOf?] at hr
      exact iff_of_false (by simp) fun hn => hx (Option.some.inj (hn.2.symm.trans hr))
    · exact (and_iff_right hj).symm
  rw [Option.eq_none_iff_forall_ne_some]
  refine forall_congr' fun j => ?_
  rw [ne_eq, ← (hb.bind id r).get?_eq_some_iff_idOf?, hget, not_and, hb.get?_eq_some_iff_idOf?,
    Option.mem_def]
  tauto

/-- **An id that moves to a new node leaves behind the tree that it would strand.** -/
theorem yielded_create (hw : s.store.WellFormed) (hb : s.bindings.OneToOne) {st : Store}
    (ha : s.store.Adds [r] st) : (s.withStore st).yielded id r = some old ↔ s.Strands id old := by
  have hfresh : ¬ s.store.Live r := (ha.fresh r (List.mem_singleton_self r)).1
  have hyielded : (s.withStore st).yielded id r = some old ↔
      s.bindings.get? id = some old ∧ old ≠ r ∧ ((s.withStore st).tied id r).isOrphan old = true := by
    rw [yielded, Option.filter_eq_some_iff, Bool.and_eq_true, bne_iff_ne]
    rfl
  have horphan : ((s.withStore st).tied id r).isOrphan old = true ↔ old ≠ .root ∧ st.Live old ∧
      st.parent? old = none ∧ ∀ x, old ∈ st.ancestors x → (s.bindings.bind id r).idOf? x = none :=
    isOrphan_iff (s := (s.withStore st).tied id r) ha.after
  -- the ids of a tree that was there
  have hids (hl : s.store.Live old) : (∀ x, old ∈ st.ancestors x → (s.bindings.bind id r).idOf? x = none) ↔
      ∀ x ∈ s.store.descendants old, ∀ j ∈ s.bindings.idOf? x, j = id := by
    refine forall_congr' fun x => imp_congr_ctx ((ha.mem_ancestors_iff hl).trans hw.mem_descendants_iff.symm) ?_
    intro hx
    have hx' := Store.live_of_ancestors (hw.mem_descendants_iff.mp hx)
    exact idOf?_bind_eq_none_iff hb fun he => hfresh (he ▸ hx')
  rw [hyielded, horphan]
  constructor
  · rintro ⟨hget, hne, hroot, hlive, hparent, hall⟩
    -- a new node is below the one that was created
    have hl : s.store.Live old := by
      refine (ha.below old hlive).resolve_right ?_
      rintro ⟨y, hy, hyo⟩
      rw [ha.after.ancestors_of_parent?_none hlive hparent, List.mem_singleton] at hyo
      exact hne (hyo.symm.trans (List.mem_singleton.mp hy))
    exact ⟨hget, hroot, hl, ha.parent? hl ▸ hparent, (hids hl).mp hall⟩
  · rintro ⟨hget, hroot, hl, hparent, halone⟩
    exact ⟨hget, fun he => hfresh (he ▸ hl), hroot, ha.live old hl, (ha.parent? hl).trans hparent,
      (hids hl).mpr halone⟩

end Scene

end DomHost
