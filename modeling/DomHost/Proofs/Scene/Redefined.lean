import DomHost.Proofs.Callback.Dropped
import DomHost.Proofs.Scene.Coherent
import DomHost.Proofs.Scene.Remnants

/-!
# Templates that are defined anew

When a template is defined by other descriptors than before, its old tree is freed with the listeners on it. Ids
and closures are left alone. So ids that were bound to nodes of the old tree dangle, and listeners that were on
them are still counted.

* `Scene.Consistent`: ids that are bound to live nodes, and closures that are counted by their listeners;
* `Scene.replaced`: the tree that a definition takes the place of;
* `Scene.Redefines`: what is left of the tables;
* **`Scene.Coherent.redefines`**: a definition that succeeds;
* `Scene.Supersedes`, **`Scene.Coherent.supersedes`**: what becomes of consistent tables.
-/

namespace DomHost.Scene

variable {κ : Type} {s t : Scene κ} {number : UInt32} {ds : List Descriptor} {gone : List NodeRef}

/-- Every id is bound to a live node, and every closure is counted by the listeners that call it. -/
structure Consistent (s : Scene κ) : Prop where
  live : ∀ id r, s.bindings.get? id = some r → s.store.Live r
  counts : ∀ c, s.callbacks.count c = s.document.listeners.uses c

/-- The nodes of the tree that a definition of a template takes the place of. The same descriptors again take no
place. -/
def replaced (s : Scene κ) (number : UInt32) (ds : List Descriptor) : List NodeRef :=
  match s.templates.get? number with
  | some tm => if tm.descriptors = ds then [] else s.store.descendants tm.root
  | none => []

theorem replaced_of_none (h : s.templates.get? number = none) : s.replaced number ds = [] := by
  rw [replaced, h]

theorem replaced_of_some {tm : Template} (h : s.templates.get? number = some tm) :
    s.replaced number ds = if tm.descriptors = ds then [] else s.store.descendants tm.root := by
  rw [replaced, h]

/-- Some nodes are gone with their listeners. Their ids are bound as before, and closures are counted as
before. -/
structure Redefines (gone : List NodeRef) (s t : Scene κ) : Prop where
  bindings : t.bindings = s.bindings
  callbacks : t.callbacks = s.callbacks
  live : ∀ x, s.store.Live x → (t.store.Live x ↔ x ∉ gone)
  uses : ∀ c, s.document.listeners.uses c = t.document.listeners.uses c + s.document.listeners.usesAt gone c

/-! ## A definition that succeeds -/

/-- The tree that gives way is freed behind the new one, which may have nodes in any place that was free. -/
theorem Coherent.redefines_of_gains (hs : s.Coherent) {st : Store} {n : Nat} (hst : st.WellFormed)
    (hgains : s.store.Gains n st) {r : NodeRef} {d : Document} {k : Nat}
    (hfree : Document.freeSubtree r { s.document with store := st } = .ok k d) (templates : Templates) :
    s.Redefines (s.store.descendants r) { s with document := d, templates } := by
  have hw := hs.wellFormed
  have hlive : ∀ x, s.store.Live x → st.Live x := fun x hx => by
    obtain ⟨_, -, -, -, hl⟩ := hgains.exists_new hst
    exact (hl x).mpr (Or.inr hx)
  have hwhole : Document.Whole { s.document with store := st } :=
    ⟨hst, hs.document.listeners, fun x hx => hlive x (hs.document.live x hx)⟩
  obtain ⟨-, -, hstore, hlisteners⟩ := (hwhole.ends_freeSubtree r).ok hfree
  -- of the nodes that were there, those below the old root are freed
  have hin : ∀ x, s.store.Live x → (x ∈ st.descendants r ↔ x ∈ s.store.descendants r) := fun x hx => by
    rw [hst.mem_descendants_iff, hw.mem_descendants_iff, hgains.ancestors_eq hst hx]
  refine ⟨rfl, rfl, fun x hx => ?_, fun c => ?_⟩
  · change d.store.Live x ↔ _
    rw [hstore, hst.distinct.live_without, hin x hx]
    exact and_iff_right (hlive x hx)
  · change s.document.listeners.uses c = d.listeners.uses c + _
    rw [hlisteners]
    rw [hs.document.listeners.uses_clear (hst.distinct.nodup_descendants r) c, Nat.add_left_cancel_iff]
    by_cases hr : s.store.Live r
    · rw [Store.descendants, Store.descendants, hgains.tree?_eq hst hr]
    · -- nothing below the old root was there, so nothing had listeners
      have hnone : ∀ x, s.store.Live x → x ∉ s.store.descendants r := fun x _ hx =>
        hr (Store.live_of_mem_ancestors (hw.mem_descendants_iff.mp hx))
      have hold : ∀ x ∈ s.store.descendants r, ∀ l ∈ s.document.listeners.ofNode x, l.handler ≠ c.handler :=
        fun x hx l hl => absurd hx (hnone x (hs.document.live x (Registry.mem_nodes_of_ofNode hl)))
      have hnew : ∀ x ∈ st.descendants r, ∀ l ∈ s.document.listeners.ofNode x, l.handler ≠ c.handler :=
        fun x hx l hl => by
          have hx' := hs.document.live x (Registry.mem_nodes_of_ofNode hl)
          exact absurd ((hin x hx').mp hx) (hnone x hx')
      rw [Registry.usesAt_eq_zero_iff.mpr hold, Registry.usesAt_eq_zero_iff.mpr hnew]

/-- Nothing gives way to the first tree of a template. -/
theorem redefines_nil_of_gains {st : Store} {n : Nat} (hst : st.WellFormed) (hgains : s.store.Gains n st)
    (templates : Templates) : s.Redefines [] { s.withStore st with templates } := by
  obtain ⟨_, -, -, -, hl⟩ := hgains.exists_new hst
  exact ⟨rfl, rfl, fun x hx => iff_of_true ((hl x).mpr (Or.inr hx)) List.not_mem_nil, fun _ => rfl⟩

/-- **What a definition that succeeds leaves.** -/
theorem Coherent.redefines (hs : s.Coherent) (h : saveTemplate number ds s = .ok () t) :
    s.Redefines (s.replaced number ds) t := by
  unfold saveTemplate at h
  rw [get_bind_apply] at h
  split at h
  · rename_i hsame
    cases h
    cases htm : s.templates.get? number with
    | none => simp [htm] at hsame
    | some tm =>
      have hds : tm.descriptors = ds := by simpa [htm] using hsame
      rw [replaced_of_some htm, if_pos hds]
      exact ⟨rfl, rfl, fun x hx => iff_of_true hx List.not_mem_nil, fun _ => rfl⟩
  rename_i hother
  obtain ⟨st, hst, hgains, ⟨a, hread⟩ | ⟨e, -, hread⟩⟩ := assemble_built hs.wellFormed ds.length ds
  · rw [bind_of_ok hread] at h
    rcases hroots : a.roots with - | ⟨root, - | ⟨root', roots⟩⟩ <;> rw [hroots] at h
    · cases h
    · cases htm : s.templates.get? number with
      | none =>
        rw [htm] at h
        cases h
        rw [replaced_of_none htm]
        exact redefines_nil_of_gains hst hgains _
      | some tm =>
        have hds : tm.descriptors ≠ ds := by simpa [htm] using hother
        rw [htm] at h
        rw [replaced_of_some htm, if_neg hds]
        set u : Scene κ := { s.withStore st with templates := s.templates.put number ⟨ds, root, a.slots⟩ }
        change discard (onDocument (Document.freeSubtree tm.root)) u = _ at h
        cases hfree : Document.freeSubtree tm.root u.document with
        | ok k d =>
          cases h.symm.trans (discard_of_ok (onDocument_of_ok hfree))
          exact hs.redefines_of_gains hst hgains hfree _
        | error e d => cases h.symm.trans (discard_of_error (onDocument_of_error hfree))
    · cases h
  · rw [bind_of_error hread] at h
    cases h

/-! ## Tables that stay consistent -/

/-- A template was defined in a scene with consistent tables. Ids that are bound to nodes of the tree that gave way
dangle, and listeners that were on these nodes are still counted. -/
structure Supersedes (number : UInt32) (ds : List Descriptor) (s t : Scene κ) : Prop where
  bindings : t.bindings = s.bindings
  dangling : ∀ id r, s.bindings.get? id = some r → (¬ t.store.Live r ↔ r ∈ s.replaced number ds)
  excess : ∀ c, t.callbacks.count c =
    t.document.listeners.uses c + s.document.listeners.usesAt (s.replaced number ds) c
  /-- The tables are still consistent just if no node of the tree had an id, or a listener that calls a closure. -/
  consistent_iff : t.Consistent ↔ ∀ x ∈ s.replaced number ds, s.bindings.idOf? x = none ∧
    ∀ l ∈ s.document.listeners.ofNode x, ∀ c : CallbackId, l.handler ≠ c.handler

theorem Redefines.consistent_iff (h : s.Redefines gone t) (hb : s.bindings.OneToOne) (hs : s.Consistent) :
    t.Consistent ↔ ∀ x ∈ gone, s.bindings.idOf? x = none ∧
      ∀ l ∈ s.document.listeners.ofNode x, ∀ c : CallbackId, l.handler ≠ c.handler := by
  constructor
  · intro ht x hx
    refine ⟨Option.eq_none_iff_forall_ne_some.mpr fun id hid => ?_, fun l hl c hc => ?_⟩
    · have hget := hb.get?_eq_some_iff_idOf?.mpr hid
      exact (h.live x (hs.live id x hget)).mp (ht.live id x (h.bindings ▸ hget)) hx
    · have hcount := ht.counts c
      rw [h.callbacks, hs.counts, h.uses] at hcount
      exact Registry.usesAt_eq_zero_iff.mp (by omega) x hx l hl hc
  · intro hfree
    refine ⟨fun id r hid => ?_, fun c => ?_⟩
    · rw [h.bindings] at hid
      refine (h.live r (hs.live id r hid)).mpr fun hr => ?_
      have hnone := (hfree r hr).1
      rw [hb.get?_eq_some_iff_idOf?.mp hid] at hnone
      cases hnone
    · have hzero := Registry.usesAt_eq_zero_iff.mpr fun x hx l hl => (hfree x hx).2 l hl c
      rw [h.callbacks, hs.counts, h.uses, hzero]
      rfl

/-- **A definition that succeeds leaves the ids and the counts of the tree that gives way.** -/
theorem Coherent.supersedes (hs : s.Coherent) (hc : s.Consistent) (h : saveTemplate number ds s = .ok () t) :
    s.Supersedes number ds t := by
  have hr := hs.redefines h
  refine ⟨hr.bindings, fun id r hid => ?_, fun c => ?_, hr.consistent_iff hs.bindings hc⟩
  · rw [hr.live r (hc.live id r hid), not_not]
  · rw [hr.callbacks, hc.counts, hr.uses]

end DomHost.Scene
