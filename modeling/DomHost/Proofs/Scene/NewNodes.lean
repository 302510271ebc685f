import DomHost.Proofs.Scene.Effects
import DomHost.Proofs.Store.Moves

/-!
# What new nodes change

New nodes stand in new detached trees, and have no ids at first. What was there stays where it is, with the
ids it had.

* `Scene.ends_newElement_adds`, `Scene.ends_onStore_adds`, `Scene.ends_addFragment_adds`: new nodes;
* **`Scene.Sound.ends_tieSlots`**, **`Scene.Sound.ends_instantiate`**: ids for the slots of a copy.
-/

namespace DomHost

/-! ## New trees -/

namespace Document

theorem ends_addFragment_adds {d : Document} (h : d.store.WellFormed) (context : NodeRef) (html : String) :
    Ends (addFragment context html) d (fun rs => Over d.listeners (d.store.Adds rs))
      (Over d.listeners (· = d.store)) := by
  unfold addFragment
  have hrequire := ends_onStore (d := d) rfl (Store.ends_requireElement d.store context)
  refine (hrequire.mono (fun _ _ ho => ho) fun _ ho => ho).bind fun e d' ho => ?_
  have hstore : d'.store = d.store := ho.store.1
  have hplant : ∀ f : Forest Markup.Item,
      Ends (onStore (Store.plantEach (fun _ => pure ()) (Markup.image f))) d'
        (fun rs => Over d.listeners (d.store.Adds rs)) (Over d.listeners (· = d.store)) := fun f => by
    refine ends_onStore ho.listeners ?_
    rw [hstore]
    exact (h.ends_plantEach (Markup.plantables_image f)).mono (fun _ _ ha => ha) fun _ he => he.elim
  exact hplant _

/-- **Nodes are put into a node without children.** -/
theorem ends_replaceChildren_carries {d : Document} {r : NodeRef} (h : d.store.WellFormed)
    (hr : d.store.children r = []) (nodes : List NodeRef) :
    Ends (replaceChildren r nodes) d (fun _ d' => d.store.Carries r nodes d'.store) fun _ => True := by
  unfold replaceChildren
  refine ((ends_require d r).mono (fun _ _ he => he.1) fun _ _ => trivial).bind ?_
  rintro e d rfl
  refine Ends.ite (fun _ => ?_) fun _ => Ends.throw_bind trivial
  have hclear : Ends (onStore (Store.clearChildren r)) d (fun _ => Over d.listeners (· = d.store))
      (Over d.listeners fun _ => True) :=
    ends_onStore rfl (Ends.modify (h.scatter_eq_self hr))
  refine (hclear.mono (fun _ _ ho => ho.store) fun _ _ => trivial).bind fun _ d' hd => ?_
  rw [← hd] at h ⊢
  refine Store.WellFormed.ends_forM (g := Document.store) (fun c t ht => ?_) h nodes
  exact (ends_onStore (d := t) rfl (ht.ends_insertBefore r c none)).mono (fun _ _ ho => ho.store)
    fun _ _ => trivial

end Document

namespace Scene

variable {κ : Type} {closed : Prop} {s t : Scene κ} {ts : List (Node × Forest Node)} {r root : NodeRef}

theorem over_self (s : Scene κ) : Over s (· = s.store) s := ⟨⟨rfl, rfl⟩, rfl, rfl, rfl⟩

theorem ends_onStore_adds {x : StoreM NodeRef}
    (hx : Ends x s.store (fun r s' => s.store.Adds [r] s') (· = s.store)) :
    Ends (onDocument (Document.onStore x)) s (fun r => Over s (s.store.Adds [r]))
      (Over s (· = s.store)) := ends_onStore s.over_self hx

theorem ends_newElement_adds (h : s.store.WellFormed) (tag : String) (ns : Option String) :
    Ends (newElement tag ns) s (fun r => Over s (s.store.Adds [r])) (Over s (· = s.store)) := by
  unfold newElement
  cases ns with
  | some ns => exact ends_onStore_adds (h.ends_createElementNs (some ns) tag)
  | none =>
    have hname : Ends (liftResult (validateName tag) : DocumentM Unit) s.document
        (fun _ => Document.Over s.document.listeners (· = s.store))
        (Document.Over s.document.listeners (· = s.store)) :=
      Ends.liftResult (fun _ _ => ⟨rfl, rfl⟩) ⟨rfl, rfl⟩
    refine (ends_onDocument s.over_self hname).bind fun _ t ho => ends_onStore ho (Ends.modifyGet ?_)
    have hstore : t.store = s.store := ho.document.store
    rw [hstore]
    exact h.adds_create rfl

/-! ## Slots -/

/-- Ids of a list have moved to nodes of a tree, or are bound no more; the others are as before. -/
structure Settles (ids : List NodeId) (root : NodeRef) (s t : Scene κ) : Prop where
  others : ∀ j, j ∉ ids → t.bindings.get? j = s.bindings.get? j
  within : ∀ j ∈ ids, ∀ x, t.bindings.get? j = some x → root ∈ t.store.ancestors x

namespace Sound

/-- **Ids are tied to nodes of a tree in which no other id is bound.** -/
theorem ends_tieSlots (h : s.Sound closed ts) (tm : Template) (hl : s.store.Live root)
    (hr : root ∉ Store.refsOf ts) {ids : List NodeId}
    (hids : ∀ j x, s.bindings.get? j = some x → root ∈ s.store.ancestors x → j ∈ ids)
    (slots : List (List Nat × NodeId)) (hslots : ∀ e ∈ slots, e.2 ∈ ids) :
    Ends (Scene.tieSlots tm root slots) s
      (fun _ t => t.store = s.store ∧ (∀ j, j ∉ ids → t.bindings.get? j = s.bindings.get? j) ∧
        (∀ j x, t.bindings.get? j = some x → s.bindings.get? j = some x ∨ root ∈ s.store.ancestors x) ∧
        ∀ e ∈ slots, ∀ x, t.bindings.get? e.2 = some x → root ∈ s.store.ancestors x)
      fun t => ∀ j, j ∉ ids → t.bindings.get? j = s.bindings.get? j := by
  induction slots generalizing s with
  | nil => exact Ends.pure ⟨rfl, fun _ _ => rfl, fun _ _ hx => Or.inl hx, by simp⟩
  | cons slot rest ih =>
    obtain ⟨path, id⟩ := slot
    obtain ⟨hid, hrest⟩ := List.forall_mem_cons.mp hslots
    unfold Scene.tieSlots
    refine Ends.get_bind ?_
    split
    · rename_i r hpath
      obtain ⟨hrl, hrn⟩ := h.store.childAtPath?_spec hl hr hpath
      have hbelow := h.store.wellFormed.mem_ancestors_childAtPath? hl hpath
      -- the node has no id but those of the list
      have htied := fun j => h.bindings.get?_bind id r j
      have hown : ∀ j, s.bindings.idOf? r = some j → j ∈ ids := fun j hj =>
        hids j r (h.bindings.get?_eq_some_iff_idOf?.mpr hj) hbelow
      have hback : ∀ j x, (s.bindings.bind id r).get? j = some x →
          s.bindings.get? j = some x ∨ root ∈ s.store.ancestors x := by
        intro j x hx
        rw [htied] at hx
        split at hx
        · exact Or.inr (Option.some.inj hx ▸ hbelow)
        · split at hx
          · exact absurd hx (by simp)
          · exact Or.inl hx
      have hothers : ∀ j, j ∉ ids → (s.bindings.bind id r).get? j = s.bindings.get? j := by
        intro j hj
        rw [htied, if_neg fun he : j = id => hj (he ▸ hid), if_neg fun he => hj (hown j he)]
      refine (Ends.modify (f := fun s : Scene κ => { s with bindings := s.bindings.bind id r })
        (Q := fun _ t => t = { s with bindings := s.bindings.bind id r }) rfl).bind ?_
      rintro _ _ rfl
      refine (ih (h.tie id hrl hrn) hl (fun j x hx hm => ?_) hrest).mono ?_ fun t ht j hj => ?_
      · by_cases hj : j ∈ ids
        · exact hj
        · exact hids j x (hothers j hj ▸ hx) hm
      · rintro _ t ⟨hstore, hsame, hfrom, hin⟩
        refine ⟨hstore, fun j hj => (hsame j hj).trans (hothers j hj), fun j x hx => ?_, ?_⟩
        · exact (hfrom j x hx).elim (hback j x) Or.inr
        · refine List.forall_mem_cons.mpr ⟨fun x hx => ?_, hin⟩
          refine (hfrom id x hx).elim (fun hx => ?_) fun hm => hm
          have hself : (s.bindings.bind id r).get? id = some x := hx
          rw [h.bindings.get?_bind_self] at hself
          exact Option.some.inj hself ▸ hbelow
      · exact (ht j hj).trans (hothers j hj)
    · exact Ends.throw_bind fun _ _ => rfl

/-- **A copy of a template is a new tree, and the ids of its slots move there.** -/
theorem ends_instantiate (h : s.Sound closed ts) (number : UInt32) (ids : List NodeId) :
    Ends (Scene.instantiate number ids) s
      (fun root t => s.store.Adds [root] t.store ∧ s.Settles ids root t)
      fun t => ∀ j, j ∉ ids → t.bindings.get? j = s.bindings.get? j := by
  unfold Scene.instantiate
  refine Ends.get_bind ?_
  split
  · exact Ends.throw fun _ _ => rfl
  rename_i tm _
  refine Ends.ite (fun _ => Ends.throw_bind fun _ _ => rfl) fun hlen => ?_
  have hclone := (ends_onStore_adds (h.store.wellFormed.ends_cloneSubtree tm.root)).and
    (h.onStore_new fun held st hg => hg.cloneSubtree)
  refine (hclone.mono (fun _ _ ho => ho) fun t ho j _ => by rw [ho.1.bindings]).bind ?_
  rintro root t ⟨ho, ht, hl, hr⟩
  have hadds : s.store.Adds [root] t.store := ho.document.store
  obtain ⟨hnew, -⟩ := hadds.fresh root (List.mem_singleton_self root)
  -- every node with an id was there before the copy
  have hfree : ∀ j x, t.bindings.get? j = some x → root ∈ t.store.ancestors x → j ∈ ids := by
    intro j x hx hm
    rw [ho.bindings] at hx
    have hlive := h.store.live x (List.mem_append_left _ (Bindings.mem_nodes_of_get? hx))
    rw [hadds.ancestors x hlive] at hm
    exact absurd (Store.live_of_mem_ancestors hm) hnew
  have hlen' : tm.slots.length = ids.length := by simpa using hlen
  have hzip : ∀ e ∈ tm.slots.zip ids, e.2 ∈ ids := fun e he => (List.of_mem_zip he).2
  refine ((ht.ends_tieSlots tm hl hr hfree _ hzip).mono (fun _ _ hu => hu) fun u hu j hj => ?_).bind ?_
  · rw [hu j hj, ho.bindings]
  · rintro _ u ⟨hstore, hothers, -, hin⟩
    refine Ends.pure ⟨hstore ▸ hadds, fun j hj => by rw [hothers j hj, ho.bindings], fun j hj x hx => ?_⟩
    have hsnd : (tm.slots.zip ids).map Prod.snd = ids := List.map_snd_zip hlen'.ge
    rw [← hsnd] at hj
    obtain ⟨e, he, rfl⟩ := List.mem_map.mp hj
    exact hstore ▸ hin e he x hx

end Sound

end Scene

end DomHost
