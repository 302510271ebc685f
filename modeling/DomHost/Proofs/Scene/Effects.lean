import DomHost.Proofs.Scene.Execute
import DomHost.Proofs.Store.Ancestry

/-!
# What giving up nodes does

A tree that is freed takes along its nodes and the ids that are bound to them. Every other node stays
where it is, and every other id stays bound to its node.

* `Bindings.Unbinds`: the ids of some nodes are unbound, and no other id changes;
* `Scene.Drops`: some nodes are gone with their ids, and nothing else;
* **`Scene.Sound.ends_releaseSubtree`**, **`Scene.Sound.ends_releaseChildren`**: freeing trees;
* `Scene.Sound.ends_reclaim`, **`Scene.Sound.ends_bind`**: what happens when an id moves on.
-/

namespace DomHost

/-! ## Ids -/

namespace Bindings

variable {b b' b'' : Bindings} {gone gone' all : NodeRef → Prop} {id : NodeId}

/-- The ids of some nodes are unbound, and no other id changes. -/
def Unbinds (gone : NodeRef → Prop) (b b' : Bindings) : Prop :=
  ∀ id x, b'.get? id = some x ↔ b.get? id = some x ∧ ¬ gone x

/-- No id changes but those of some nodes. -/
def Spares (gone : NodeRef → Prop) (b b' : Bindings) : Prop :=
  ∀ id, (∀ x, b.get? id = some x → ¬ gone x) → b'.get? id = b.get? id

namespace Unbinds

theorem refl (b : Bindings) (hn : ∀ id x, b.get? id = some x → ¬ gone x) : b.Unbinds gone b :=
  fun id x => (and_iff_left_of_imp (hn id x)).symm

theorem trans (h : b.Unbinds gone b') (h' : b'.Unbinds gone' b'')
    (hall : ∀ x, all x ↔ gone x ∨ gone' x) : b.Unbinds all b'' := by
  intro id x
  rw [h', h, hall, not_or, and_assoc]

theorem spares (h : b.Unbinds gone b') : b.Spares gone b' := fun id hn =>
  Option.ext fun x => (h id x).trans (and_iff_left_of_imp (hn x))

end Unbinds

end Bindings

/-! ## Removing a tree -/

namespace Store

variable {s : Store} {r : NodeRef}

/-- **A live tree other than that of the document is removed.** -/
theorem WellFormed.ends_freeSubtree (h : s.WellFormed) (r : NodeRef) :
    Ends (freeSubtree r) s (fun _ s' => s.Live r ∧ r ≠ .root ∧ s' = s.without r)
      fun s' => s' = s ∧ ¬ (s.Live r ∧ r ≠ .root) := by
  unfold freeSubtree
  refine ((ends_require_live s r).mono (fun _ _ he => he) fun _ he => ⟨he.1, fun hl => he.2 hl.1⟩).bind ?_
  rintro d _ ⟨rfl, hd⟩
  refine Ends.ite (fun hdoc => Ends.throw_bind ⟨rfl, fun hl => hl.2 ?_⟩) fun hdoc => Ends.modifyGet ?_
  · exact h.onlyDocument ⟨r, d⟩ (h.get?_eq_some_iff.mp hd) hdoc
  · exact ⟨get?_isSome_iff.mp (by rw [hd]; rfl), h.ne_root hd (by simpa using hdoc), rfl⟩

end Store

namespace Document

variable {d : Document}

theorem ends_freeSubtree_store (h : d.store.WellFormed) (r : NodeRef) :
    Ends (freeSubtree r) d (fun _ d' => d.store.Live r ∧ r ≠ .root ∧ d'.store = d.store.without r)
      fun d' => d'.store = d.store ∧ ¬ (d.store.Live r ∧ r ≠ .root) := by
  unfold freeSubtree
  have hfree := ends_onStore (d := d) rfl (h.ends_freeSubtree r)
  refine (hfree.mono (fun _ _ ho => ho.store) fun _ ho => ho.store).bind fun _ _ ho => ?_
  exact (Ends.modify (Q := fun _ d' => d.store.Live r ∧ r ≠ .root ∧ d'.store = d.store.without r) ho).bind
    fun _ _ ho => Ends.pure ho

end Document

/-! ## Freeing trees -/

namespace Scene

variable {κ : Type} {closed : Prop} {s t u : Scene κ} {ts : List (Node × Forest Node)} {r : NodeRef}
  {gone gone' all : NodeRef → Prop}

/-- Some nodes are gone with their ids, and nothing else. -/
structure Drops (gone : NodeRef → Prop) (s t : Scene κ) : Prop where
  live : ∀ x, t.store.Live x ↔ s.store.Live x ∧ ¬ gone x
  ancestors : ∀ x, ¬ gone x → t.store.ancestors x = s.store.ancestors x
  bindings : s.bindings.Unbinds gone t.bindings

theorem Drops.refl (s : Scene κ) (hn : ∀ x, ¬ gone x) : s.Drops gone s :=
  ⟨fun x => (and_iff_left (hn x)).symm, fun _ _ => rfl, .refl _ fun _ x _ => hn x⟩

theorem Drops.trans (h : s.Drops gone t) (h' : t.Drops gone' u) (hall : ∀ x, all x ↔ gone x ∨ gone' x) :
    s.Drops all u where
  live x := by rw [h'.live, h.live, hall, not_or, and_assoc]
  ancestors x hx := by
    rw [hall, not_or] at hx
    rw [h'.ancestors x hx.2, h.ancestors x hx.1]
  bindings := h.bindings.trans h'.bindings hall

theorem unbinds_strip (h : s.bindings.OneToOne) (r : NodeRef) :
    s.bindings.Unbinds (· = r) (s.strip r).bindings := by
  intro id x
  rcases s.strip_bindings r with ⟨hi, hb⟩ | ⟨j, hi, hb⟩
  · rw [hb]
    refine (and_iff_left_of_imp fun hx he => ?_).symm
    rw [he, h.get?_eq_some_iff_idOf?, hi] at hx
    exact absurd hx (by simp)
  · rw [hb, h.get?_release_eq_some_iff hi]

theorem oneToOne_strip (h : s.bindings.OneToOne) (r : NodeRef) : (s.strip r).bindings.OneToOne := by
  rcases s.strip_bindings r with ⟨-, hb⟩ | ⟨id, -, hb⟩
  · exact hb ▸ h
  · exact hb ▸ h.release id

theorem unbinds_foldl_strip (h : s.bindings.OneToOne) (rs : List NodeRef) :
    s.bindings.Unbinds (· ∈ rs) (rs.foldl strip s).bindings := by
  induction rs generalizing s with
  | nil => exact .refl _ fun _ _ _ => List.not_mem_nil
  | cons r rs ih => exact (unbinds_strip h r).trans (ih (oneToOne_strip h r)) fun x => List.mem_cons

namespace Sound

/-- **A live tree other than that of the document is freed with its ids.** -/
theorem ends_releaseSubtree (h : s.Sound closed ts) (r : NodeRef) :
    Ends (Scene.releaseSubtree r) s
      (fun _ t => s.store.Live r ∧ r ≠ .root ∧ t.store = s.store.without r ∧
        s.Drops (r ∈ s.store.ancestors ·) t)
      fun t => ¬ (s.store.Live r ∧ r ≠ .root) ∧ t.store = s.store ∧
        s.bindings.Unbinds (r ∈ s.store.ancestors ·) t.bindings := by
  have hw := h.store.wellFormed
  obtain ⟨hs, hstore, -, -⟩ := h.foldl_strip (s.store.descendants r)
  have hids : s.bindings.Unbinds (r ∈ s.store.ancestors ·)
      ((s.store.descendants r).foldl Scene.strip s).bindings := fun id x =>
    (unbinds_foldl_strip h.bindings _ id x).trans (and_congr_right fun _ => not_congr hw.mem_descendants_iff)
  unfold Scene.releaseSubtree
  refine (Ends.modify (f := fun s : Scene κ => (s.store.descendants r).foldl Scene.strip s)
    (Q := fun _ t => t = (s.store.descendants r).foldl Scene.strip s) rfl).bind ?_
  rintro _ _ rfl
  have hfree := (ends_onDocument_with (Document.ends_freeSubtree_store hs.store.wellFormed r)).discard
  refine hfree.mono ?_ ?_
  · rintro _ _ ⟨_, d, rfl, hl, hne, hd⟩
    have hd' : d.store = s.store.without r := by rw [← hstore]; exact hd
    refine ⟨hstore ▸ hl, hne, hd', fun x => ?_, fun x hx => ?_, hids⟩
    · change d.store.Live x ↔ _
      rw [hd', hw.distinct.live_without, hw.mem_descendants_iff]
    · change d.store.ancestors x = _
      rw [hd', hw.ancestors_without hne (by rwa [hw.mem_descendants_iff])]
  · rintro _ ⟨d, rfl, hd, hl⟩
    have hback : s.store.Live r → ((s.store.descendants r).foldl Scene.strip s).store.Live r :=
      fun hl => by rwa [hstore]
    exact ⟨fun hl' => hl (hl'.imp_left hback), hd.trans hstore, hids⟩

/-- **The children of a node are freed, and nothing else.** -/
theorem ends_releaseChildren (h : s.Sound closed ts) (hr : r ∉ Store.refsOf ts) :
    Ends (Scene.releaseChildren r) s
      (fun _ t => t.Sound closed ts ∧ s.Drops (fun x => r ∈ s.store.ancestors x ∧ x ≠ r) t)
      fun _ => False := by
  suffices H : ∀ cs : List NodeRef, cs.Nodup → ∀ s : Scene κ, s.Sound closed ts →
      (∀ c ∈ cs, s.store.parent? c = some r) → Ends (cs.forM Scene.releaseSubtree) s
        (fun _ t => t.Sound closed ts ∧ s.Drops (fun x => ∃ c ∈ cs, c ∈ s.store.ancestors x) t)
        fun _ => False by
    have hw := h.store.wellFormed
    refine Ends.get_bind ((H _ (hw.nodup_children r) s h fun c => hw.parent?_eq_some_iff.mpr).mono
      (fun _ t ht => ⟨ht.1, ?_⟩) fun _ he => he)
    simpa only [hw.exists_child_iff] using ht.2
  intro cs hn
  induction cs with
  | nil => exact fun s h _ => Ends.pure ⟨h, .refl s fun _ => by simp⟩
  | cons c cs ih =>
    intro s h hcs
    obtain ⟨hc, hcs⟩ := List.forall_mem_cons.mp hcs
    obtain ⟨hnot, hn⟩ := List.nodup_cons.mp hn
    have hw := h.store.wellFormed
    have hcr := hw.notMem_ancestors_of_parent? hc
    have hne := hw.ne_root_of_parent? hc
    have hfree := (h.ends_releaseSubtree c).and
      (h.releaseSubtree (h.store.child_notMem hr (hw.parent?_eq_some_iff.mp hc)))
    refine (hfree.mono (fun _ _ he => he) fun _ he => he.1.1 ⟨(hw.parent?_isSome hc).1, hne⟩).bind ?_
    rintro _ t ⟨⟨-, -, -, hd⟩, ht⟩
    -- the way up from another child does not lead through the one that is gone
    have hstay : ∀ c' ∈ cs, c ∉ s.store.ancestors c' := fun c' hc' hm => by
      rw [hw.ancestors_of_parent? (hcs c' hc')] at hm
      rcases List.mem_cons.mp hm with rfl | hm
      · exact hnot hc'
      · exact hcr hm
    refine (ih hn t ht fun c' hc' => ?_).mono (fun _ u hu => ⟨hu.1, hd.trans hu.2 fun x => ?_⟩)
      fun _ he => he
    · rw [Store.parent?, hd.ancestors c' (hstay c' hc')]
      exact hcs c' hc'
    · rw [List.exists_mem_cons_iff]
      by_cases hx : c ∈ s.store.ancestors x
      · simp only [hx, true_or]
      · simp only [hx, false_or, hd.ancestors x hx]

end Sound

/-! ## Giving up what an id was bound to -/

theorem isOrphan_iff (h : s.store.WellFormed) :
    s.isOrphan r = true ↔ r ≠ .root ∧ s.store.Live r ∧ s.store.parent? r = none ∧
      ∀ x, r ∈ s.store.ancestors x → s.bindings.idOf? x = none := by
  simp only [isOrphan, Bool.and_eq_true, bne_iff_ne, Store.get?_isSome_iff, Option.isNone_iff_eq_none,
    List.all_eq_true, h.mem_descendants_iff, and_assoc]

/-- The tree that is given up when an id moves to another node, if there is one. -/
def yielded (s : Scene κ) (id : NodeId) (r : NodeRef) : Option NodeRef :=
  (s.bindings.get? id).filter fun old =>
    old != r && { s with bindings := s.bindings.bind id r }.isOrphan old

namespace Sound

/-- **A tree that no id reaches is freed; no id changes.** -/
theorem ends_reclaim (h : s.Sound closed ts) (r : NodeRef) :
    Ends (Scene.reclaim r) s
      (fun _ t => (∀ id, t.bindings.get? id = s.bindings.get? id) ∧
        t.store = if s.isOrphan r then s.store.without r else s.store) fun _ => False := by
  unfold Scene.reclaim
  refine Ends.get_bind (Ends.ite (fun ho => ?_) fun ho => Ends.pure ⟨fun _ => rfl, (if_neg ho).symm⟩)
  obtain ⟨hne, hl, -, hnone⟩ := (isOrphan_iff h.store.wellFormed).mp ho
  refine (h.ends_releaseSubtree r).mono (fun _ t ht => ⟨fun id => ?_, ?_⟩) fun _ he => he.1 ⟨hl, hne⟩
  · refine ht.2.2.2.bindings.spares id fun x hx hm => ?_
    rw [h.bindings.get?_eq_some_iff_idOf?, hnone x hm] at hx
    exact absurd hx (by simp)
  · rw [ht.2.2.1, if_pos ho]

/-- **An id moves to a node, and a tree that no id reaches any more is freed.** -/
theorem ends_bind (h : s.Sound closed ts) (id : NodeId) (hl : s.store.Live r) (hr : r ∉ Store.refsOf ts) :
    Ends (Scene.bind id r) s
      (fun _ t => (∀ j, t.bindings.get? j = (s.bindings.bind id r).get? j) ∧
        t.store = (s.yielded id r).elim s.store s.store.without) fun _ => False := by
  have htie := h.tie id hl hr
  unfold Scene.bind
  refine Ends.get_bind ?_
  refine (Ends.modify (f := fun s : Scene κ => { s with bindings := s.bindings.bind id r })
    (Q := fun _ t => t = { s with bindings := s.bindings.bind id r }) rfl).bind ?_
  rintro _ _ rfl
  cases hp : (s.bindings.get? id).filter (· != r) with
  | none =>
    have hy : s.yielded id r = none := by
      rw [yielded, ← Option.filter_filter, hp]
      rfl
    exact Ends.pure ⟨fun _ => rfl, by rw [hy]; rfl⟩
  | some old =>
    refine (htie.ends_reclaim old).mono (fun _ t ht => ⟨ht.1, ht.2.trans ?_⟩) fun _ he => he
    have hy : s.yielded id r =
        (some old).filter fun old => { s with bindings := s.bindings.bind id r }.isOrphan old := by
      rw [yielded, ← Option.filter_filter, hp]
    rw [hy]
    split
    · rename_i ho
      rw [Option.filter_some_pos ho]
      rfl
    · rename_i ho
      rw [Option.filter_some_neg (by simpa using ho)]
      rfl

end Sound

end Scene

end DomHost
