import DomHost.Proofs.Follows
import DomHost.Proofs.Scene.Sparing
import DomHost.Proofs.Scene.Still

/-!
# Scenes that stay tidy

No instruction tidies up after others. A scene is tidy after an instruction if every detached tree is
looked after by it or keeps an id, and only then, so what is left behind once is left behind for good.

* `Scene.Readies.ends_looks`, `Scene.Sound.leaves_create`: instructions that bind ids;
* `Templates.get?_put`, **`Scene.Sound.leaves_saveTemplate`**: a template in the place of another;
* **`Scene.Sound.ends_leaves`**: what an instruction leaves of the detached trees;
* **`Scene.Sound.ends_tidy_iff`**: a scene is tidy after an instruction exactly if it is spared;
* **`Scene.Sound.ends_sparesAll`**: so it is after several instructions.
-/

namespace DomHost

theorem Templates.get?_put (tms : Templates) (number m : UInt32) (tm : Template) :
    (tms.put number tm).get? m = if m = number then some tm else tms.get? m := by
  have hfilter : m ≠ number → ∀ es : List (UInt32 × Template),
      (es.filter (·.1 != number)).lookup m = es.lookup m := by
    intro hm es
    induction es with
    | nil => rfl
    | cons e es ih =>
      by_cases he : e.1 = number
      · have hne : (m == e.1) = false := by simpa [he] using hm
        rw [List.filter_cons_of_neg (by simp [he]), ih, List.lookup_cons, hne]
      · rw [List.filter_cons_of_pos (by simpa using he), List.lookup_cons, List.lookup_cons, ih]
  rw [put, get?, List.lookup_cons]
  by_cases hm : m = number
  · simp [hm]
  · have hne : (m == number) = false := by simpa using hm
    rw [hne, if_neg hm]
    exact hfilter hm tms.entries

namespace Store.Building

variable {s₀ s : Store} {held nodes : List NodeRef} {x : NodeRef}

/-- What was there before building stays where it is. -/
theorem ancestors_of_live (h : s.Building s₀.forest.tops held nodes) (hw : s₀.WellFormed) (hx : s₀.Live x) :
    s.ancestors x = s₀.ancestors x :=
  hw.ancestors_of_tops h.guards.wellFormed (fun t ht => h.guards.tops t ht) hx

/-- The tops are those of the new trees and those that were there. -/
theorem mem_or_live (h : s.Building s₀.forest.tops held nodes) (hx : s.Live x) (hp : s.parent? x = none) :
    x ∈ nodes ∨ s₀.Live x := by
  obtain ⟨n, hn, rfl⟩ := List.mem_map.mp hx
  have hroot := List.mem_map_of_mem (f := fun n : Node => n.ref)
    (h.guards.wellFormed.mem_roots_of_parent? hn hp)
  refine (h.only n.ref hroot).imp_right fun hm => ?_
  obtain ⟨t, ht, htn⟩ := List.mem_map.mp hm
  exact htn ▸ List.mem_map_of_mem (Forest.mem_toList_of_mem_tops ht List.mem_cons_self)

end Store.Building

namespace Scene

variable {κ : Type} {closed : Prop} {s t u : Scene κ} {ts : List (Node × Forest Node)} {r : NodeRef}
  {id : NodeId} {ids : List NodeId}

/-! ## Ids that move on -/

/-- An instruction binds its id to a node, after the ids of a list have got nodes below it. -/
theorem Readies.ends_looks (h : s.Readies ids r t) (hs : s.Sound closed ts) (ht : t.Sound closed ts)
    (hl : t.store.Live r) (hr : r ∉ Store.refsOf ts) {i : Instruction}
    (hhandled : i.handled = if id ∈ ids then [] else [id])
    (hlost : s.loses i = fun x => ∃ j ∈ id :: ids, s.bindings.get? j = some x) :
    Ends (Scene.bind id r) t (fun _ u => s.Leaves (s.looks i) (s.loses i) u) fun _ => True := by
  have hlook : s.looks i = fun y => id ∉ ids ∧ s.bindings.get? id = some y := by
    funext y
    rw [looks, hhandled]
    split <;> simp [*]
  rw [hlook, hlost]
  exact (h.ends_bind hs ht id hl hr).mono (fun _ _ hu => hu) fun _ he => he.elim

theorem Sound.leaves_create (h : s.Sound closed ts) {x : SceneM κ NodeRef}
    (hx : Ends x s (fun r t => Over s (s.store.Adds [r]) t) (Over s (· = s.store)))
    (hsound : Ends x s (fun r t => t.Sound closed ts ∧ t.store.Live r ∧ r ∉ Store.refsOf ts)
      (Sound closed ts)) {i : Instruction} (hhandled : i.handled = [id])
    (hlost : s.loses i = fun x => ∃ j ∈ [id], s.bindings.get? j = some x) :
    Ends (x >>= Scene.bind id) s (fun _ u => s.Leaves (s.looks i) (s.loses i) u) fun _ => True := by
  refine ((hx.and hsound).mono (fun _ _ ht => ht) fun _ _ => trivial).bind ?_
  rintro r t ⟨ho, ht, hl, hr⟩
  have hset : s.Settles [] r t :=
    ⟨fun j _ => by rw [ho.bindings], fun j hj => absurd hj List.not_mem_nil⟩
  exact (Readies.of_adds ho.document.store hset ho.templates).ends_looks h ht hl hr
    (by simp [hhandled]) hlost

theorem Sound.leaves_loadTemplate (h : s.Sound closed ts) (number : UInt32) (id : NodeId)
    (slots : List NodeId) :
    Ends (Scene.execute (.loadTemplate number id slots)) s
      (fun _ t => s.Leaves (s.looks (.loadTemplate number id slots))
        (s.loses (.loadTemplate number id slots)) t)
      fun _ => True := by
  have hcopy := ((h.ends_instantiate number slots).and (h.instantiate number slots)).and
    (keeps_instantiate lasting_templates (fun _ _ => rfl) number slots s)
  refine (hcopy.mono (fun _ _ ht => ht) fun _ _ => trivial).bind ?_
  rintro r t ⟨⟨⟨hadds, hset⟩, ht, hl, hr⟩, htm⟩
  exact (Readies.of_adds hadds hset htm).ends_looks h ht hl hr rfl rfl

theorem Sound.leaves_bindElementById (h : s.Sound closed ts) (id : NodeId) (domId : String) :
    Ends (Scene.execute (.bindElementById id domId)) s
      (fun _ t => s.Leaves (s.looks (.bindElementById id domId)) (s.loses (.bindElementById id domId)) t)
      fun _ => True := by
  have hw := h.store.wellFormed
  refine Ends.get_bind ?_
  split
  · rename_i r he
    obtain ⟨hl, hr⟩ := h.elementById?_spec he
    have hm := hw.mem_descendants_iff.mp (Document.mem_descendants_of_elementById? he)
    have htop : s.store.top? r = some .root :=
      (hw.mem_ancestors_iff_top? hw.live_root hw.parent?_document).mp hm
    exact (Readies.of_connected hw htop).ends_looks h h hl hr (by simp [Instruction.handled]) rfl
  · exact Ends.throw trivial

/-! ## Templates -/

/-- A template has been put under a number. The tree of the old one is gone, and everything else stays where
it is. -/
structure Puts (number : UInt32) (tm : Template) (s t : Scene κ) : Prop where
  bindings : t.bindings = s.bindings
  templates : t.templates = s.templates.put number tm
  new : ¬ s.store.Live tm.root
  ancestors : ∀ x, s.store.Live x → (∀ old ∈ s.templates.get? number, old.root ∉ s.store.ancestors x) →
    t.store.ancestors x = s.store.ancestors x
  /-- The new tree is the only one that was not there. -/
  tops : ∀ y, t.store.Live y → t.store.parent? y = none → y = tm.root ∨
    s.store.Live y ∧ ∀ old ∈ s.templates.get? number, old.root ∉ s.store.ancestors y

theorem Puts.leaves {number : UInt32} {tm : Template} (h : s.Puts number tm t) (hs : s.Sound closed ts) :
    s.Leaves (fun _ => False) (fun _ => False) t where
  fresh y hy := by
    have hself : t.templates.get? number = some tm := by rw [h.templates, Templates.get?_put, if_pos rfl]
    have hne : y ≠ tm.root := fun he => hy.unkept number tm hself he.symm
    obtain ⟨hl, hout⟩ := (h.tops y hy.live hy.detached).resolve_left hne
    refine Or.inl (hy.of_ancestors (h.ancestors y hl hout).symm fun m old hold he => ?_)
    by_cases hm : m = number
    · exact hout old (hm ▸ hold) (he ▸ Store.mem_ancestors_self (he ▸ hl))
    · refine hy.unkept m old ?_ he
      rw [h.templates, Templates.get?_put, if_neg hm, hold]
  checked _ hf _ := hf.elim
  others y hy _ := by
    have hw := hs.store.wellFormed
    have hout : ∀ old ∈ s.templates.get? number, old.root ∉ s.store.ancestors y := fun old hold hm => by
      rw [hy.ancestors hw, List.mem_singleton] at hm
      exact hy.unkept number old hold hm
    refine ⟨hy.of_ancestors (h.ancestors y hy.live hout) fun m tm' hm he => ?_, exists_congr fun x => ?_⟩
    · rw [h.templates, Templates.get?_put] at hm
      split at hm
      · exact h.new (Option.some.inj hm ▸ he ▸ hy.live)
      · exact hy.unkept m tm' hm he
    · -- no node of the old template is bound
      rw [and_iff_left not_false, Owns, Owns, Bound, Bound, h.bindings]
      refine and_congr_right fun hb => ?_
      obtain ⟨id, hid⟩ := hb
      rw [Store.top?, h.ancestors x (hs.live_of_bound ⟨id, hid⟩) fun old hold hm => ?_, Store.top?]
      have hheld : x ∈ s.held := List.mem_append_left _ (Bindings.mem_nodes_of_get? hid)
      have hall : s.store.Guards s.store.forest.tops s.held := ⟨hw, fun _ ht => ht, hs.store.live⟩
      exact hs.notMem_descendants hold hall hheld (hw.mem_descendants_iff.mpr hm)

theorem Sound.ends_saveTemplate_puts (h : s.Sound closed ts) (number : UInt32) (ds : List Descriptor) :
    Ends (Scene.saveTemplate number ds) s (fun _ t => t = s ∨ ∃ tm, s.Puts number tm t) fun _ => True := by
  have hw := h.store.wellFormed
  unfold Scene.saveTemplate
  refine Ends.get_bind (Ends.ite (fun _ => Ends.pure (Or.inl rfl)) fun _ => ?_)
  refine ((ends_assemble ds.length ds h.building).mono (fun _ _ ho => ho) fun _ _ => trivial).bind
    fun a u ho => ?_
  split
  · rename_i root hroots
    have hbuild : u.store.Building s.store.forest.tops s.held [root] := by
      rw [← hroots]
      exact ho.document.store
    have hu := hbuild.guards.wellFormed
    have hnew : ¬ s.store.Live root := fun hl =>
      hbuild.fresh root (List.mem_singleton_self root) (Store.mem_refsOf_tops hl)
    have hup : ∀ x, s.store.Live x → u.store.ancestors x = s.store.ancestors x := fun x hx =>
      hbuild.ancestors_of_live hw hx
    have htop : ∀ y, u.store.Live y → u.store.parent? y = none → y = root ∨ s.store.Live y := fun y hy hp =>
      (hbuild.mem_or_live hy hp).imp_left List.mem_singleton.mp
    have hput : u.templates.put number ⟨ds, root, a.slots⟩ =
        s.templates.put number ⟨ds, root, a.slots⟩ := by rw [ho.templates]
    refine (Ends.modify (Q := fun _ t =>
      t = { u with templates := u.templates.put number ⟨ds, root, a.slots⟩ }) rfl).bind ?_
    rintro _ _ rfl
    split
    · rename_i old hget
      have hfree := (ends_onDocument_with (s :=
        { u with templates := u.templates.put number ⟨ds, root, a.slots⟩ })
          (Document.ends_freeSubtree_store hu old.root)).discard
      refine hfree.mono ?_ fun _ _ => trivial
      rintro _ _ ⟨_, d, rfl, -, hne, hd⟩
      have hstore : d.store = u.store.without old.root := hd
      refine Or.inr ⟨_, ho.bindings, hput, hnew, fun x hx hout => ?_, fun y hy hp => ?_⟩
      · change d.store.ancestors x = _
        have hm : x ∉ u.store.descendants old.root := by
          rw [hu.mem_descendants_iff, hup x hx]
          exact hout old hget
        rw [hstore, hu.ancestors_without hne hm, hup x hx]
      · change d.store.Live y at hy
        change d.store.parent? y = none at hp
        rw [hstore, hu.distinct.live_without] at hy
        rw [hstore, Store.parent?, hu.ancestors_without hne hy.2, ← Store.parent?] at hp
        refine (htop y hy.1 hp).imp_right fun hl => ⟨hl, fun old' hold => ?_⟩
        obtain rfl := Option.some.inj (hget.symm.trans hold)
        rw [← hup y hl, ← hu.mem_descendants_iff]
        exact hy.2
    · rename_i hget
      refine Ends.pure (Or.inr ⟨_, ho.bindings, hput, hnew, fun x hx _ => hup x hx, fun y hy hp => ?_⟩)
      exact (htop y hy hp).imp_right fun hl => ⟨hl, by simp [hget]⟩
  · exact Ends.throw trivial

theorem Sound.leaves_saveTemplate (h : s.Sound closed ts) (number : UInt32) (ds : List Descriptor) :
    Ends (Scene.execute (.saveTemplate number ds)) s
      (fun _ t => s.Leaves (fun _ => False) (fun _ => False) t) fun _ => True := by
  refine (h.ends_saveTemplate_puts number ds).mono (fun _ t ht => ?_) fun _ _ => trivial
  obtain rfl | ⟨tm, hput⟩ := ht
  · exact h.leaves_of_still h (Store.lasting_still.refl t.store) rfl rfl (fun _ hf => hf.elim)
      fun _ => not_false
  · exact hput.leaves h

/-! ## Instructions -/

/-- **What an instruction leaves of the detached trees.** -/
theorem Sound.ends_leaves (h : s.Sound closed ts) (i : Instruction) :
    Ends (Scene.execute i) s (fun _ t => s.Leaves (s.looks i) (s.loses i) t) fun _ => True := by
  have hw := h.store.wellFormed
  by_cases hi : i.isStill = true
  · have hend : Ends (Scene.execute i) s (fun _ t => s.Still t) fun _ => True :=
      (still_execute hi s).mono (fun _ _ ht => ht) fun _ _ => trivial
    have hlost : ∀ x, ¬ s.loses i x := by
      cases i <;> simp_all [Instruction.isStill, loses, Instruction.unbound]
    refine h.ends_of_bindings (Instruction.movesIds_of_isStill hi) ?_ hend fun t ts' ht hts hb htm =>
      h.leaves_of_still hts ht hb htm (fun _ => bound_of_looks) hlost
    rintro number ds rfl
    exact absurd hi Bool.false_ne_true
  cases i with
  | createElement id tag ns =>
    exact h.leaves_create (ends_newElement_adds hw tag ns) (h.newElement tag ns) rfl rfl
  | createText id text =>
    exact h.leaves_create (ends_onStore_adds (Ends.modifyGet (hw.adds_create rfl)))
      (h.onStore_new fun _ _ hg => hg.create rfl) rfl rfl
  | createPlaceholder id =>
    exact h.leaves_create (ends_onStore_adds (Ends.modifyGet (hw.adds_create rfl)))
      (h.onStore_new fun _ _ hg => hg.create rfl) rfl rfl
  | loadTemplate number id slots => exact h.leaves_loadTemplate number id slots
  | saveTemplate number ds =>
    have hnone : s.looks (.saveTemplate number ds) = fun _ => False := by
      funext y
      simp [looks, Instruction.handled]
    have hlost : s.loses (.saveTemplate number ds) = fun _ => False := by
      funext x
      simp [loses, Instruction.unbound]
    rw [hnone, hlost]
    exact h.leaves_saveTemplate number ds
  | bindElementById id domId => exact h.leaves_bindElementById id domId
  | appendChildren id ids => exact h.leaves_appendChildren id ids
  | insertBefore id ids =>
    exact h.leaves_insert rfl (by simp) id ids rfl fun r rs => hw.ends_insertAllBefore r rs
  | insertAfter id ids =>
    exact h.leaves_insert rfl (by simp) id ids rfl fun r rs => hw.ends_insertAfter r rs
  | remove id => exact h.leaves_remove id
  | replaceWith id ids => exact h.leaves_replaceWith id ids
  | freeId id =>
    have hone : ∀ P : NodeRef → Prop, (P = fun x => ∃ j ∈ [id], s.bindings.get? j = some x) →
        P = fun x => s.bindings.get? id = some x := by
      rintro _ rfl
      funext x
      simp
    rw [hone _ (rfl : s.looks (.freeId id) = _), hone _ (rfl : s.loses (.freeId id) = _)]
    exact (h.leaves_freeId id).mono (fun _ _ ht => ht) fun _ he => he.elim
  | setProperty id property value =>
    exact h.leaves_setContent id (by simpa [Instruction.isStill] using hi) value
  | _ => exact absurd rfl hi

/-- **After an instruction a scene is tidy exactly if the instruction has spared it.** -/
theorem Sound.ends_tidy_iff (h : s.Sound closed ts) (i : Instruction) :
    Ends (Scene.execute i) s (fun _ t => t.Tidy ↔ s.Spares i) fun _ => True := by
  refine ((h.ends_leaves i).and (h.execute i)).mono (fun _ t ht => ?_) fun _ _ => trivial
  obtain ⟨hleaves, ts', hts, -⟩ := ht
  exact hleaves.tidy_iff hts

/-- A scene that is spared was tidy before. -/
theorem Sound.tidy_of_spares (h : s.Sound closed ts) {i : Instruction} (hi : s.Spares i) : s.Tidy := by
  rw [h.tidy_iff]
  intro y hy
  rcases hi y hy with ⟨j, -, hj⟩ | ⟨x, hx, -⟩
  · exact hy.reached h.store.wellFormed ⟨j, hj⟩
  · exact ⟨x, hx⟩

/-- Does every instruction spare the scene that it finds? -/
def SparesAll (s : Scene κ) : List Instruction → Prop
  | [] => True
  | i :: rest => s.Spares i ∧ ∀ t, Scene.execute i s = .ok () t → t.SparesAll rest

/-- **After several instructions a scene is tidy exactly if it was tidy at first and each of them has spared
it.** -/
theorem IsSound.ends_sparesAll (h : s.IsSound closed) (is : List Instruction) :
    Ends (is.forM Scene.execute) s (fun _ t => t.Tidy ↔ s.Tidy ∧ s.SparesAll is) fun _ => True := by
  induction is generalizing s with
  | nil => exact Ends.pure (and_iff_left trivial).symm
  | cons i rest ih =>
    obtain ⟨ts, hs⟩ := h
    have hone := (hs.ends_tidy_iff i).and (ends_execute i ⟨ts, hs⟩)
    change Ends (Scene.execute i >>= fun _ => rest.forM Scene.execute) s _ _
    unfold Ends at hone ⊢
    cases hi : Scene.execute i s with
    | error e t =>
      rw [bind_of_error hi]
      trivial
    | ok a t =>
      rw [hi] at hone
      rw [bind_of_ok hi]
      refine (ih hone.2).mono (fun _ u hu => ?_) fun _ he => he
      rw [hu, hone.1, SparesAll, hi]
      constructor
      · rintro ⟨hspare, hrest⟩
        refine ⟨hs.tidy_of_spares hspare, hspare, fun t' ht' => ?_⟩
        obtain ⟨-, rfl⟩ := EStateM.Result.ok.inj ht'
        exact hrest
      · rintro ⟨-, hspare, hrest⟩
        exact ⟨hspare, hrest t rfl⟩

end Scene

end DomHost
