import DomHost.Proofs.Scene.Assemble
import DomHost.Proofs.Scene.Release

/-!
# Instructions keep scenes sound

Whatever an instruction asks for, and whether it is carried out or ends in a fault on the way, the scene
is sound afterwards, and so it is after any stream of instructions.

* `Scene.IsSound`: a sound scene, whatever trees its templates have;
* `Scene.Sound.assign`, `Scene.Sound.replace`: instructions that give up nodes;
* **`Scene.Sound.listen`**, **`Scene.Sound.unlisten`**: listeners with their closures;
* **`Scene.Sound.execute`**: one instruction;
* **`Scene.ends_run`**: a stream of instructions.
-/

namespace DomHost.Scene

variable {κ : Type} {closed : Prop} {s : Scene κ} {ts : List (Node × Forest Node)} {r : NodeRef} {id : NodeId}

/-- A sound scene, whatever trees its templates have. -/
def IsSound (closed : Prop) (s : Scene κ) : Prop := ∃ ts, s.Sound closed ts

theorem Inherits.isSound {s₀ : Scene κ} (h : Inherits closed ts s₀ s) : s.IsSound closed := h.imp fun _ h => h.1

/-! ## Nodes of ids -/

theorem ends_node (s : Scene κ) (id : NodeId) :
    Ends (node id) s (fun r s' => s' = s ∧ s.bindings.get? id = some r)
      fun s' => s' = s ∧ s.bindings.get? id = none := by
  unfold node
  refine Ends.get_bind ?_
  split
  · exact Ends.pure ⟨rfl, ‹_›⟩
  · exact Ends.throw ⟨rfl, ‹_›⟩

theorem ends_nodes (s : Scene κ) (ids : List NodeId) :
    Ends (nodes ids) s (fun rs s' => s' = s ∧ ids.map s.bindings.get? = rs.map some) (· = s) := by
  induction ids with
  | nil => exact Ends.pure ⟨rfl, rfl⟩
  | cons id ids ih =>
    unfold nodes at ih ⊢
    rw [List.mapM_cons]
    refine ((ends_node s id).mono (fun _ _ hr => hr) fun _ hs => hs.1).bind ?_
    rintro r s' ⟨rfl, hr⟩
    refine ih.bind ?_
    rintro rs s' ⟨rfl, hrs⟩
    exact Ends.pure ⟨rfl, by rw [List.map_cons, List.map_cons, hr, hrs]⟩

section With

variable {Q : Unit → Scene κ → Prop} {E : Scene κ → Prop}

/-- What is done with the node of an id. -/
theorem ends_withNode {f : NodeRef → SceneM κ Unit} (he : E s)
    (hf : ∀ r, s.bindings.get? id = some r → Ends (f r) s Q E) : Ends (node id >>= f) s Q E := by
  refine ((ends_node s id).mono (fun _ _ hr => hr) fun _ hs => hs.1 ▸ he).bind ?_
  rintro r _ ⟨rfl, hr⟩
  exact hf r hr

/-- What is done with the nodes of ids. -/
theorem ends_withNodes {ids : List NodeId} {f : List NodeRef → SceneM κ Unit} (he : E s)
    (hf : ∀ rs, ids.map s.bindings.get? = rs.map some → Ends (f rs) s Q E) :
    Ends (nodes ids >>= f) s Q E := by
  refine ((ends_nodes s ids).mono (fun _ _ hr => hr) fun _ hs => hs ▸ he).bind ?_
  rintro rs _ ⟨rfl, hrs⟩
  exact hf rs hrs

theorem mem_nodes_iff {ids : List NodeId} {rs : List NodeRef} (hrs : ids.map s.bindings.get? = rs.map some) :
    r ∈ rs ↔ ∃ i ∈ ids, s.bindings.get? i = some r := by
  rw [← List.mem_map_of_injective (Option.some_injective _), ← hrs, List.mem_map]

end With

namespace Sound

theorem withNode (h : s.Sound closed ts) {f : NodeRef → SceneM κ Unit}
    (hf : ∀ r, r ∉ Store.refsOf ts → Ends (f r) s (fun _ => Sound closed ts) (Sound closed ts)) :
    Ends (node id >>= f) s (fun _ => Sound closed ts) (Sound closed ts) :=
  ends_withNode h fun r hr => hf r (h.notMem_of_get? hr)

theorem withNodes (h : s.Sound closed ts) {ids : List NodeId} {f : List NodeRef → SceneM κ Unit}
    (hf : ∀ rs, (∀ r ∈ rs, r ∉ Store.refsOf ts) → Ends (f rs) s (fun _ => Sound closed ts) (Sound closed ts)) :
    Ends (nodes ids >>= f) s (fun _ => Sound closed ts) (Sound closed ts) := by
  refine ends_withNodes h fun rs hrs => hf rs fun r hr => ?_
  obtain ⟨i, -, hi⟩ := (mem_nodes_iff hrs).mp hr
  exact h.notMem_of_get? hi

/-! ## New nodes -/

theorem newElement (h : s.Sound closed ts) (tag : String) (ns : Option String) :
    Ends (newElement tag ns) s (fun r s => s.Sound closed ts ∧ s.store.Live r ∧ r ∉ Store.refsOf ts)
      (Sound closed ts) := by
  refine (ends_newElement h.building tag ns).mono (fun r s' ho => ?_) fun _ ho => h.of_overTops ho
  have hb := ho.document.store
  refine ⟨h.of_overTops (over_guards ho), hb.live List.mem_cons_self, fun hr => ?_⟩
  exact hb.fresh r List.mem_cons_self (Store.refsOf_subset (fun t ht => h.store.tops t ht) hr)

/-- An element of the document is live and outside the templates. -/
theorem elementById?_spec (h : s.Sound closed ts) {domId : String}
    (he : s.document.elementById? domId = some r) : s.store.Live r ∧ r ∉ Store.refsOf ts := by
  have hm := Document.mem_descendants_of_elementById? he
  exact ⟨Store.live_of_mem_descendants hm, h.store.descendant_notMem h.outside hm⟩

/-! ## Contents -/

theorem writeAttribute (h : s.Sound closed ts) (hr : r ∉ Store.refsOf ts) (name value : String)
    (ns : Option String) :
    Ends (writeAttribute r name value ns) s (fun _ => Sound closed ts) (Sound closed ts) :=
  (ends_writeAttribute (Store.keptByChange_guards hr) h.overSelf name value ns).mono
    (fun _ _ ho => h.of_over ho) fun _ ho => h.of_over ho

theorem assign (h : s.Sound closed ts) (hr : r ∉ Store.refsOf ts) (property : Property) (value : String) :
    Ends (assign r property value) s (fun _ => Sound closed ts) (Sound closed ts) := by
  have hset : ∀ {s : Scene κ}, s.Sound closed ts →
      Ends (Scene.onDocument (Document.setProperty r property value)) s (fun _ => Sound closed ts) (Sound closed ts) :=
    fun h => h.onDocument fun _ _ hd => Document.ends_setProperty hd hr property value
  cases property with
  | innerHtml =>
    have hadd := Document.ends_addFragment ⟨rfl, h.store⟩ r value
    refine ((ends_onDocument h.overSelf hadd).mono (fun _ _ ho => ho) fun _ ho => h.of_over ho).bind ?_
    intro rs s' ho
    have hrs := ho.document.store.2
    have hs := h.of_over ⟨ho.document.mono fun _ hp => hp.1, ho.bindings, ho.templates, ho.callbacks⟩
    refine (hs.releaseChildren hr).bind fun _ _ hs => ?_
    exact hs.onDocument fun _ _ hd => Document.ends_replaceChildren hd hr hrs
  | textContent => exact (h.releaseChildren hr).bind fun _ _ hs => hset hs
  | className => exact hset h
  | value => exact hset h
  | checked => exact hset h

theorem replace (h : s.Sound closed ts) (hr : r ∉ Store.refsOf ts) {nodes : List NodeRef}
    (hn : ∀ n ∈ nodes, n ∉ Store.refsOf ts) :
    Ends (replace r nodes) s (fun _ => Sound closed ts) (Sound closed ts) := by
  unfold Scene.replace
  refine Ends.get_bind ((h.onStore fun _ _ hg => hg.replaceWith hr hn).bind fun _ _ hs => ?_)
  exact Ends.ite (fun _ => hs.releaseSubtree hr) fun _ => Ends.pure hs

/-! ## Listeners -/

/-- Other listeners, with the closures that go with them. -/
theorem withListeners (h : s.Sound closed ts) {g : Registry} {t : CallbackTable κ} (hp : g.Proper)
    (hn : ∀ x ∈ g.nodes, s.store.Live x ∧ x ∉ Store.refsOf ts)
    (hc : closed → (∀ l ∈ g.installed, Ours l) ∧ t.Tallies g.uses) :
    Sound closed ts { s with document := { s.document with listeners := g }, callbacks := t } := by
  refine ⟨⟨h.store.wellFormed, h.store.tops, fun x hx => ?_⟩, h.bindings, hp,
    fun hclosed => ⟨(hc hclosed).1, (hc hclosed).2⟩, h.templates, h.separate, fun x hx => ?_, h.outside⟩
  · rcases List.mem_append.mp hx with hx | hx
    · exact h.store.live x (List.mem_append_left _ hx)
    · exact (hn x hx).1
  · rcases List.mem_append.mp hx with hx | hx
    · exact h.quiet x (List.mem_append_left _ hx)
    · exact (hn x hx).2

theorem withCallbacks (h : s.Sound closed ts) {t : CallbackTable κ}
    (ht : closed → t.Tallies s.document.listeners.uses) : Sound closed ts { s with callbacks := t } :=
  ⟨h.store, h.bindings, h.listeners, fun hclosed => ⟨(h.counted hclosed).ours, ht hclosed⟩, h.templates,
    h.separate, h.quiet, h.outside⟩

theorem listening (h : s.Sound closed ts) {x : NodeRef} (hx : x ∈ s.document.listeners.nodes) :
    s.store.Live x ∧ x ∉ Store.refsOf ts :=
  ⟨h.store.live x (List.mem_append_right _ hx), h.quiet x (List.mem_append_right _ hx)⟩

end Sound

/-- An operation on the document leaves the rest of the scene alone. -/
theorem ends_onDocument_with {α : Type} {x : DocumentM α} {Q : α → Document → Prop}
    {E : Document → Prop} (hx : Ends x s.document Q E) :
    Ends (onDocument x) s (fun a s' => ∃ d, s' = { s with document := d } ∧ Q a d)
      fun s' => ∃ d, s' = { s with document := d } ∧ E d := by
  unfold Ends at hx
  unfold Ends onDocument
  cases hd : x s.document with
  | ok a d =>
    rw [hd] at hx
    exact ⟨d, rfl, hx⟩
  | error e d =>
    rw [hd] at hx
    exact ⟨d, rfl, hx⟩

theorem uses_cons {g g' : Registry} {l : Listener} (hp : g.installed.Perm (l :: g'.installed))
    (c : CallbackId) : g.uses c = g'.uses c + if l.handler = c.handler then 1 else 0 := by
  rw [Registry.uses, hp.countP_eq, List.countP_cons]
  simp [Registry.uses]

/-- A listener that calls the compute module counts for no closure. -/
theorem uses_eq {g g' : Registry} {l : Listener} (hp : g.installed.Perm (l :: g'.installed))
    (hl : l.handler = delegateHandler) : g.uses = g'.uses := by
  funext c
  rw [uses_cons hp, if_neg (hl ▸ delegateHandler_ne_handler c), Nat.add_zero]

/-- A listener more counts for its closure alone. -/
theorem update_uses {g g' : Registry} {l : Listener} {c : CallbackId}
    (hp : g.installed.Perm (l :: g'.installed)) (hl : l.handler = c.handler) :
    Function.update g'.uses c (g'.uses c + 1) = g.uses := by
  funext d
  by_cases hd : d = c
  · rw [hd, Function.update_self, uses_cons hp, if_pos hl]
  · have hne : l.handler ≠ d.handler := fun he => hd (CallbackId.handler_injective (he.symm.trans hl))
    rw [Function.update_of_ne hd, uses_cons hp, if_neg hne, Nat.add_zero]

/-- A listener is ours if it is added for the compute module or for a closure. -/
theorem Counted.ours_add (h : s.Counted) {l : Listener} (hl : Ours l) (r : NodeRef) :
    ∀ m ∈ (s.document.listeners.add r l).2.installed, Ours m := by
  intro m hm
  rcases s.document.listeners.perm_add r l with ha | ⟨-, hp⟩
  · rw [ha] at hm
    exact h.ours m hm
  · rcases List.mem_cons.mp (hp.mem_iff.mp hm) with rfl | hm
    · exact hl
    · exact h.ours m hm

namespace Sound

theorem listening_add (h : s.Sound closed ts) (hl : s.store.Live r) (hr : r ∉ Store.refsOf ts) (l : Listener) :
    ∀ x ∈ (s.document.listeners.add r l).2.nodes, s.store.Live x ∧ x ∉ Store.refsOf ts := by
  intro x hx
  rcases List.mem_cons.mp (Registry.nodes_add_subset _ r l hx) with rfl | hx
  · exact ⟨hl, hr⟩
  · exact h.listening hx

/-- **A listener that is added is counted for its closure.** -/
theorem listen (h : s.Sound closed ts) (hr : r ∉ Store.refsOf ts) (name : String) (c : CallbackId)
    (capture : Bool) : Ends (listen r name c capture) s (fun _ => Sound closed ts) (Sound closed ts) := by
  unfold Scene.listen
  refine Ends.get_bind ?_
  split
  · rename_i hc
    have hours : Ours ⟨name, c.handler, { capture }⟩ := ⟨rfl, Or.inr ⟨c, rfl⟩⟩
    have hadd := ends_onDocument_with
      (Document.ends_addListener s.document r ⟨name, c.handler, { capture }⟩)
    refine (hadd.mono (fun _ _ he => he) ?_).bind ?_
    · rintro _ ⟨_, rfl, rfl⟩
      exact h
    · rintro added _ ⟨_, rfl, hl, rfl, rfl⟩
      rcases s.document.listeners.perm_add r ⟨name, c.handler, { capture }⟩ with ha | ⟨ha, hp⟩
      · rw [ha]
        exact Ends.pure h
      · rw [ha, if_pos rfl]
        have hattach := fun hclosed => (h.counted hclosed).callbacks.attach hc
        have hadded := fun t => h.withListeners (t := t) (h.listeners.add r _)
          (h.listening_add hl hr ⟨name, c.handler, { capture }⟩)
        refine Ends.get_bind ?_
        split
        · rename_i k t hk
          refine Ends.modify (hadded t fun hclosed => ⟨(h.counted hclosed).ours_add hours r, ?_⟩)
          obtain ⟨_, _, hk', ht⟩ := hattach hclosed
          obtain ⟨-, rfl⟩ := Prod.mk.inj (Except.ok.inj (hk'.symm.trans hk))
          rw [← update_uses hp rfl]
          exact ht
        · rename_i e hk
          refine Ends.throw (hadded s.callbacks fun hclosed => ?_)
          obtain ⟨_, _, hk', -⟩ := hattach hclosed
          exact absurd (hk'.symm.trans hk) (by simp)
  · exact Ends.throw_bind h

/-- **A listener that is removed is counted for its closure no more.** -/
theorem unlisten (h : s.Sound closed ts) (r : NodeRef) (name : String) (c : CallbackId)
    (capture : Bool) : Ends (unlisten r name c capture) s (fun _ => Sound closed ts) (Sound closed ts) := by
  unfold Scene.unlisten
  have hremove := ends_onDocument_with
    (Document.ends_removeListener s.document r name c.handler capture)
  refine (hremove.mono (fun _ _ he => he) ?_).bind ?_
  · rintro _ ⟨_, rfl, rfl⟩
    exact h
  · rintro removed _ ⟨_, rfl, -, rfl, rfl⟩
    rcases h.listeners.perm_remove r name c.handler capture with ha | ⟨ha, l, hlc, hp⟩
    · rw [ha]
      exact Ends.pure h
    · rw [ha, if_pos rfl]
      have huse := uses_cons hp c
      rw [if_pos hlc] at huse
      have hdetach := fun hclosed => (h.counted hclosed).callbacks.detach (c := c) (by omega)
      have hremoved := fun t => h.withListeners (t := t) (h.listeners.remove r name c.handler capture)
        fun x hx => h.listening (Registry.nodes_remove_subset _ r name c.handler capture hx)
      refine Ends.get_bind ?_
      split
      · rename_i k t hk
        refine Ends.modify (hremoved t fun hclosed => ⟨fun m hm => ?_, ?_⟩)
        · exact (h.counted hclosed).ours m (hp.mem_iff.mpr (List.mem_cons_of_mem l hm))
        · obtain ⟨_, _, hk', ht⟩ := hdetach hclosed
          obtain ⟨-, rfl⟩ := Prod.mk.inj (Except.ok.inj (hk'.symm.trans hk))
          rw [huse, ← update_uses hp hlc, Function.update_idem, Nat.add_sub_cancel,
            Function.update_eq_self] at ht
          exact ht
      · rename_i e hk
        refine Ends.pure (hremoved s.callbacks fun hclosed => ?_)
        obtain ⟨_, _, hk', -⟩ := hdetach hclosed
        exact absurd (hk'.symm.trans hk) (by simp)

end Sound

/-! ## Instructions -/

/-- **An instruction keeps a scene sound, whether it is carried out or ends in a fault.** -/
theorem Sound.execute (h : s.Sound closed ts) (i : Instruction) :
    Ends (execute i) s (fun _ => Inherits closed ts s) (Inherits closed ts s) := by
  -- only a new definition changes which trees the templates have
  by_cases ht : ∃ number nodes, i = .saveTemplate number nodes
  · obtain ⟨number, nodes, rfl⟩ := ht
    exact h.saveTemplate number nodes
  suffices hs : Ends (Scene.execute i) s (fun _ => Sound closed ts) (Sound closed ts) from
    hs.mono (fun _ _ h => .refl h) fun _ h => .refl h
  cases i with
  | createElement id tag ns =>
    exact (h.newElement tag ns).bind fun _ _ hn => hn.1.bind id hn.2.1 hn.2.2
  | createText id text =>
    exact (h.onStore_new fun _ _ hg => hg.create rfl).bind fun _ _ hn => hn.1.bind id hn.2.1 hn.2.2
  | createPlaceholder id =>
    exact (h.onStore_new fun _ _ hg => hg.create rfl).bind fun _ _ hn => hn.1.bind id hn.2.1 hn.2.2
  | loadTemplate template id slots =>
    exact (h.instantiate template slots).bind fun _ _ hn => hn.1.bind id hn.2.1 hn.2.2
  | saveTemplate number nodes => exact absurd ⟨number, nodes, rfl⟩ ht
  | bindElementById id domId =>
    refine Ends.get_bind ?_
    split
    · rename_i r he
      obtain ⟨hl, hr⟩ := h.elementById?_spec he
      exact h.bind id hl hr
    · exact Ends.throw h
  | setAttribute id name value ns => exact h.withNode fun r hr => h.writeAttribute hr name value ns
  | removeAttribute id name ns =>
    exact h.withNode fun r hr => h.onStore fun _ _ hg => hg.removeAttribute hr ns name
  | toggleAttribute id name force =>
    refine h.withNode fun r hr => ?_
    have htoggle := h.onStore fun _ _ hg => hg.toggleAttribute hr name force
    refine htoggle.discard.mono ?_ fun _ he => he
    rintro _ _ ⟨_, hq⟩
    exact hq
  | setStyle id property value =>
    exact h.withNode fun r hr => h.onStore fun _ _ hg => hg.updateElement hr _
  | setProperty id property value => exact h.withNode fun r hr => h.assign hr property value
  | appendChildren parent children =>
    refine h.withNode fun r hr => h.withNodes fun rs hrs => ?_
    exact Ends.forM (fun c hc _ hs => hs.onStore fun _ _ hg => hg.insertBefore hr (hrs c hc) none) h
  | insertBefore reference ids =>
    exact h.withNode fun r hr => h.withNodes fun rs hrs =>
      h.onStore fun _ _ hg => hg.insertAllBefore hr hrs
  | insertAfter reference ids =>
    exact h.withNode fun r hr => h.withNodes fun rs hrs =>
      h.onStore fun _ _ hg => hg.insertAfter hr hrs
  | remove id => exact h.withNode fun r hr => h.releaseSubtree hr
  | replaceWith id ids =>
    exact h.withNode fun r hr => h.withNodes fun rs hrs => h.replace hr hrs
  | freeId id =>
    refine Ends.get_bind ?_
    split
    · rename_i r hg
      refine (Ends.modify (Q := fun _ => Sound closed ts) (h.release id)).bind fun _ _ hs => ?_
      exact hs.reclaim (h.notMem_of_get? hg)
    · exact Ends.pure h
  | addListener id name callback capture =>
    exact h.withNode fun r hr => h.listen hr name callback capture
  | removeListener id name callback capture =>
    exact h.withNode fun r _ => h.unlisten r name callback capture

theorem ends_execute (i : Instruction) (h : s.IsSound closed) :
    Ends (execute i) s (fun _ => IsSound closed) (IsSound closed) := by
  obtain ⟨ts, h⟩ := h
  exact (h.execute i).mono (fun _ _ hs => hs.isSound) fun _ hs => hs.isSound

/-- **A stream of instructions keeps a scene sound, up to the fault that ends it.** -/
theorem ends_run (c : Cursor) (h : s.IsSound closed) : Ends (run c) s (fun _ => IsSound closed) (IsSound closed) := by
  suffices hrounds : ∀ rounds applied (c : Cursor) (s : Scene κ), s.IsSound closed →
      Ends (runFrom c rounds applied) s (fun _ => IsSound closed) (IsSound closed) from hrounds _ _ c s h
  intro rounds
  induction rounds with
  | zero => exact fun _ _ _ h => Ends.pure h
  | succ rounds ih =>
    intro applied c s h
    unfold runFrom
    split
    · exact Ends.pure h
    · exact Ends.throw h
    · exact (ends_execute _ h).bind fun _ s hs => ih _ _ s hs

end DomHost.Scene
