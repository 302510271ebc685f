import DomHost.Proofs.Listener.Delegates
import DomHost.Proofs.Scene.Effects

/-!
# Coherent scenes

The parts of a scene agree whatever its templates are made of: ids and nodes are tied one to one, listeners
are on live nodes, and each of them was added by the scene. So every edit of a scene keeps it coherent, also
when nodes of templates have got ids.

* `Document.Whole.ends_freeSubtree`: a tree is freed with its listeners;
* `Scene.Coherent`: scenes whose parts agree;
* `Scene.Coherent.strip`, `Scene.Coherent.add`, `Scene.Coherent.remove`: listeners fewer and more;
* **`Scene.Coherent.ends_releaseSubtree`**: a tree is given up.
-/

namespace DomHost

/-! ## Documents -/

namespace Document.Whole

variable {d d' : Document} {r x : NodeRef}

theorem guards (h : d.Whole) : d.store.Guards [] d.listeners.nodes := ⟨h.store, by simp, h.live⟩

theorem of_over (h : d.Whole) (ho : d'.Over d.listeners (Store.Guards [] d.listeners.nodes)) : d'.Whole :=
  ⟨ho.store.wellFormed, ho.listeners ▸ h.listeners, ho.listeners ▸ ho.store.live⟩

theorem of_same (h : d.Whole) (hs : d'.store = d.store) (hl : d'.listeners = d.listeners) : d'.Whole :=
  ⟨hs ▸ h.store, hl ▸ h.listeners, fun x hx => hs ▸ h.live x (hl ▸ hx)⟩

theorem delegates_eq_nil (h : d.Whole) (hx : ¬ d.store.Live x) : d.listeners.delegates x = [] :=
  Registry.delegates_eq_nil fun hm => hx (h.live x hm)

/-- **A live tree other than that of the document is freed with its listeners.** -/
theorem ends_freeSubtree (h : d.Whole) (r : NodeRef) :
    Ends (freeSubtree r) d
      (fun _ d' => d'.Whole ∧ r ≠ .root ∧ d'.store = d.store.without r ∧
        d'.listeners = d.listeners.clear (d.store.descendants r))
      fun d' => d'.store = d.store ∧ d'.listeners = d.listeners ∧ ¬ (d.store.Live r ∧ r ≠ .root) := by
  unfold freeSubtree
  have hfree := ends_onStore (d := d) rfl
    ((Store.ends_freeSubtree d.store r).and (h.store.ends_freeSubtree r))
  refine (hfree.mono (fun _ _ ho => ho) fun _ ho => ⟨ho.store.1, ho.listeners, ho.store.2.2⟩).bind ?_
  rintro _ d' ⟨hl, ⟨rfl, -, -⟩, -, hne, hs⟩
  have hw : (d.store.without r).WellFormed :=
    (h.store.guards.without hne Store.notMem_refsOf_nil (by simp)).wellFormed
  refine (Ends.modify (Q := fun _ k => k.Whole ∧ r ≠ .root ∧ k.store = d.store.without r ∧
    k.listeners = d.listeners.clear (d.store.descendants r)) ?_).bind fun _ _ hk => Ends.pure hk
  refine ⟨⟨hs ▸ hw, ?_, fun x hx => ?_⟩, hne, hs, ?_⟩
  · rw [hl]
    exact h.listeners.clear _
  · rw [hl] at hx
    obtain ⟨hm, hn⟩ := h.listeners.mem_nodes_clear hx
    rw [hs]
    exact h.store.distinct.live_without.mpr ⟨h.live x hm, hn⟩
  · rw [hl]
    rfl

end Document.Whole

/-! ## Scenes -/

namespace Scene

variable {κ : Type} {s t : Scene κ} {r x : NodeRef}

/-- A scene whose parts agree, whatever nodes its templates have. -/
structure Coherent (s : Scene κ) : Prop where
  document : s.document.Whole
  bindings : s.bindings.OneToOne
  ours : ∀ l ∈ s.document.listeners.installed, Ours l

/-- The listeners of a node that catch events. -/
def delegates (s : Scene κ) (x : NodeRef) : List Listener := s.document.listeners.delegates x

/-- A scene of a well-formed document without listeners. -/
theorem coherent_of_over {d : Document} (hd : d.Over {} Store.WellFormed) :
    Coherent (κ := κ) { document := d } where
  document := Document.whole_of_over hd
  bindings := ⟨List.nodup_nil, List.nodup_nil, List.Perm.refl _⟩
  ours := by simp [hd.listeners, Registry.installed]

namespace Coherent

theorem wellFormed (h : s.Coherent) : s.store.WellFormed := h.document.store

theorem delegates_eq_nil (h : s.Coherent) (hx : ¬ s.store.Live x) : s.delegates x = [] :=
  h.document.delegates_eq_nil hx

theorem of_over (h : s.Coherent)
    (ho : Over s (Store.Guards [] s.document.listeners.nodes) t) : t.Coherent :=
  ⟨h.document.of_over ho.document, ho.bindings ▸ h.bindings, ho.document.listeners ▸ h.ours⟩

theorem withBindings (h : s.Coherent) {b : Bindings} (hb : b.OneToOne) :
    Coherent { s with bindings := b } := ⟨h.document, hb, h.ours⟩

/-! ### Listeners -/

theorem withListeners (h : s.Coherent) {g : Registry} (hp : g.Proper)
    (hn : ∀ x ∈ g.nodes, s.store.Live x) (ho : ∀ l ∈ g.installed, Ours l) :
    Coherent { s with document := { s.document with listeners := g } } :=
  ⟨⟨h.wellFormed, hp, hn⟩, h.bindings, ho⟩

theorem withCallbacks (h : s.Coherent) (c : CallbackTable κ) : Coherent { s with callbacks := c } :=
  ⟨h.document, h.bindings, h.ours⟩

theorem add (h : s.Coherent) {l : Listener} (hr : s.store.Live r) (hl : Ours l) :
    Coherent { s with document := { s.document with listeners := (s.document.listeners.add r l).2 } } := by
  refine h.withListeners (h.document.listeners.add r l) (fun x hx => ?_) fun m hm => ?_
  · rcases List.mem_cons.mp (Registry.nodes_add_subset _ r l hx) with rfl | hx
    · exact hr
    · exact h.document.live x hx
  · rcases s.document.listeners.perm_add r l with ha | ⟨-, hp⟩
    · exact h.ours m (by rwa [ha] at hm)
    · rcases List.mem_cons.mp (hp.mem_iff.mp hm) with rfl | hm
      · exact hl
      · exact h.ours m hm

theorem remove (h : s.Coherent) (r : NodeRef) (type : String) (handler : HandlerId) (capture : Bool) :
    Coherent { s with document :=
      { s.document with listeners := (s.document.listeners.remove r type handler capture).2 } } := by
  refine h.withListeners (h.document.listeners.remove r type handler capture)
    (fun x hx => h.document.live x (Registry.nodes_remove_subset _ _ _ _ _ hx)) fun m hm => ?_
  rcases h.document.listeners.perm_remove r type handler capture with hr | ⟨-, l, -, hp⟩
  · exact h.ours m (by rwa [hr] at hm)
  · exact h.ours m (hp.mem_iff.mpr (List.mem_cons_of_mem l hm))

/-! ### Giving up a tree -/

theorem strip (h : s.Coherent) (r : NodeRef) : (s.strip r).Coherent where
  document := ⟨h.document.store, h.document.listeners.takeAll r, fun x hx =>
    h.document.live x (Registry.nodes_takeAll_subset _ r hx)⟩
  bindings := oneToOne_strip h.bindings r
  ours l hl := h.ours l ((s.document.listeners.perm_takeAll r).mem_iff.mpr (List.mem_append_right _ hl))

theorem foldl_strip (h : s.Coherent) (rs : List NodeRef) :
    (rs.foldl Scene.strip s).Coherent ∧ (rs.foldl Scene.strip s).store = s.store ∧
      (rs.foldl Scene.strip s).document.listeners = s.document.listeners.clear rs := by
  induction rs generalizing s with
  | nil => exact ⟨h, rfl, rfl⟩
  | cons r rs ih => exact ih (h.strip r)

/-- **A tree is freed with its listeners. That of the document is not freed, but loses its listeners.** -/
theorem ends_releaseSubtree (h : s.Coherent) (r : NodeRef) :
    Ends (releaseSubtree r) s
      (fun _ t => t.Coherent ∧ (r ≠ .root ∧ t.store = s.store.without r) ∧
        ∀ x, t.delegates x = if x ∈ s.store.descendants r then [] else s.delegates x)
      fun t => t.Coherent ∧ (¬ (s.store.Live r ∧ r ≠ .root) ∧ t.store = s.store) ∧
        ∀ x, t.delegates x = if x ∈ s.store.descendants r then [] else s.delegates x := by
  unfold Scene.releaseSubtree
  obtain ⟨hs, hstore, hlisteners⟩ := h.foldl_strip (s.store.descendants r)
  refine (Ends.modify (f := fun s : Scene κ => (s.store.descendants r).foldl Scene.strip s)
    (Q := fun _ t => t = (s.store.descendants r).foldl Scene.strip s) rfl).bind ?_
  rintro _ _ rfl
  set rs := s.store.descendants r
  have hclear : ∀ x, (s.document.listeners.clear rs).delegates x =
      if x ∈ rs then [] else s.delegates x := h.document.listeners.delegates_clear rs
  have hfree := (ends_onDocument_with (hs.document.ends_freeSubtree r)).discard
  rw [hlisteners, show (rs.foldl Scene.strip s).document.store = s.store from hstore] at hfree
  refine hfree.mono ?_ ?_
  · rintro _ _ ⟨_, d, rfl, hd, hne, hwithout, hl⟩
    refine ⟨⟨hd, hs.bindings, fun l hm => ?_⟩, ⟨hne, hwithout⟩, fun x => ?_⟩
    · change l ∈ d.listeners.installed at hm
      rw [hl] at hm
      exact h.ours l (Registry.installed_clear_subset _ rs (Registry.installed_clear_subset _ _ hm))
    · change d.listeners.delegates x = _
      rw [hl, (h.document.listeners.clear rs).delegates_clear, hclear]
      split_ifs <;> rfl
  · rintro _ ⟨d, rfl, hsame, hl, hn⟩
    have hd := hs.document.of_same (hsame.trans hstore.symm) (hl.trans hlisteners.symm)
    refine ⟨⟨hd, hs.bindings, fun l hm => ?_⟩, ⟨hn, hsame⟩, fun x => ?_⟩
    · change l ∈ d.listeners.installed at hm
      rw [hl] at hm
      exact h.ours l (Registry.installed_clear_subset _ rs hm)
    · change d.listeners.delegates x = _
      rw [hl, hclear]

end Coherent

end Scene

end DomHost
