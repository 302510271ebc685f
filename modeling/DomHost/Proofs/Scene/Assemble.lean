import DomHost.Proofs.Scene.Sound

/-!
# Trees of templates

While a template is built, its nodes are new and stand at the top, apart from the trees that were there
before. So the tree of a template shares no node with anything that had an id, a listener or a template
already, and replacing a template frees a tree that nothing else reaches.

* `Store.Building`: a store in which some new nodes wait at the top;
* `Scene.ends_complete`, **`Scene.ends_assemble`**: building keeps this;
* `Scene.Inherits`: scenes whose templates have trees that were there before, or new ones;
* **`Scene.Sound.saveTemplate`**: defining a template;
* `Scene.Sound.instantiate`: a copy of a template.
-/

namespace DomHost

namespace Store

/-- A store with guarded trees, beside which some nodes outside them wait at the top. -/
structure Building (ts : List (Node × Forest Node)) (held nodes : List NodeRef) (s : Store) :
    Prop where
  guards : s.Guards ts held
  fresh : ∀ r ∈ nodes, r ∉ refsOf ts
  top : ∀ r ∈ nodes, r ∈ s.forest.roots.map (·.ref)
  nodup : nodes.Nodup
  /-- Nothing else is at the top. -/
  only : ∀ r ∈ s.forest.roots.map (·.ref), r ∈ nodes ∨ r ∈ ts.map (·.1.ref)

variable {s : Store} {ts : List (Node × Forest Node)} {held nodes : List NodeRef}
  {r parent child : NodeRef}

theorem roots_setData (s : Store) (r : NodeRef) (data : NodeData) :
    (s.setData r data).forest.roots.map (·.ref) = s.forest.roots.map (·.ref) := by
  rw [setData, Forest.roots_relabel, List.map_map]
  refine List.map_congr_left fun n _ => ?_
  simp only [Function.comp_apply]
  split <;> rfl

/-- **A node that is moved under another leaves the top, and no other does.** -/
theorem mem_roots_place_iff {before : Option NodeRef} (hc : s.Live child) :
    r ∈ (s.place parent child before).forest.roots.map (·.ref) ↔
      r ∈ s.forest.roots.map (·.ref) ∧ r ≠ child := by
  obtain ⟨n, k, ht⟩ := exists_tree? hc
  rw [place, ht]
  simp only [Forest.roots_editChildren, Forest.roots_prune, List.mem_map, List.mem_filter]
  constructor
  · rintro ⟨m, ⟨hm, hne⟩, rfl⟩
    exact ⟨⟨m, hm, rfl⟩, by simpa [is] using hne⟩
  · rintro ⟨⟨m, hm, rfl⟩, hne⟩
    exact ⟨m, ⟨hm, by simpa [is] using hne⟩, rfl⟩

namespace Building

theorem perm (h : s.Building ts held nodes) {nodes' : List NodeRef} (hp : nodes'.Perm nodes) :
    s.Building ts held nodes' :=
  ⟨h.guards, fun r hr => h.fresh r (hp.mem_iff.mp hr), fun r hr => h.top r (hp.mem_iff.mp hr),
    hp.nodup_iff.mpr h.nodup, fun r hr => (h.only r hr).imp_left hp.mem_iff.mpr⟩

/-- At first nothing waits. -/
theorem start (h : s.Guards s.forest.tops held) : s.Building s.forest.tops held [] := by
  refine ⟨h, by simp, by simp, List.nodup_nil, fun r hr => Or.inr ?_⟩
  rwa [Forest.roots_eq_map_tops, List.map_map] at hr

theorem live (h : s.Building ts held nodes) (hr : r ∈ nodes) : s.Live r := by
  obtain ⟨n, hn, rfl⟩ := List.mem_map.mp (h.top r hr)
  exact List.mem_map_of_mem (Forest.mem_toList_of_mem_roots hn)

/-- A new node waits with the others. -/
theorem create (h : s.Building ts held nodes) {data : NodeData} (hd : data.isDocument = false) :
    Ends (modifyGet (·.create data) : StoreM NodeRef) s
      (fun r => Building ts held (r :: nodes)) (Building ts held nodes) := by
  refine Ends.modifyGet ?_
  rw [create_eq_plant]
  have hn : ¬ s.Live (s.plant data .nil).1 := h.guards.wellFormed.plant_notLive data .nil
  have hg := (h.guards.plant (plantable_leaf hd)).weaken (List.Subset.refl ts)
    (List.subset_cons_self _ held)
  refine ⟨hg, ?_, ?_, ?_, fun r hr => ?_⟩
  · refine List.forall_mem_cons.mpr ⟨fun hr => hn (h.guards.live_of_mem_refsOf hr), h.fresh⟩
  · refine List.forall_mem_cons.mpr ⟨List.mem_cons_self, fun r hr => ?_⟩
    exact List.mem_cons_of_mem _ (h.top r hr)
  · exact List.nodup_cons.mpr ⟨fun hr => hn (h.live hr), h.nodup⟩
  · rcases List.mem_cons.mp hr with rfl | hr
    · exact Or.inl List.mem_cons_self
    · exact (h.only r hr).imp_left (List.mem_cons_of_mem _)

theorem createElementNs (h : s.Building ts held nodes) (ns : Option String) (name : String) :
    Ends (createElementNs ns name) s (fun r => Building ts held (r :: nodes))
      (Building ts held nodes) := by
  unfold Store.createElementNs
  exact (Ends.liftResult (Q := fun _ => Building ts held nodes) (fun _ _ => h) h).bind
    fun _ _ h => h.create rfl

theorem keptByChange (hr : r ∉ refsOf ts) : KeptByChange r (Building ts held nodes) := by
  intro s e e' h hd
  refine ⟨h.guards.setData hd rfl rfl hr, h.fresh, fun x hx => ?_, h.nodup, fun x hx => ?_⟩
  · rw [roots_setData]
    exact h.top x hx
  · rw [roots_setData] at hx
    exact h.only x hx

/-- A node that gets a parent waits no more. -/
theorem appendChild (h : s.Building ts held (child :: nodes)) (hp : parent ∈ nodes) :
    Ends (appendChild parent child) s (fun _ => Building ts held nodes) (Guards ts held) := by
  obtain ⟨hchild, hfresh⟩ := List.forall_mem_cons.mp h.fresh
  obtain ⟨hnot, hnodup⟩ := List.nodup_cons.mp h.nodup
  have htop := (List.forall_mem_cons.mp h.top).2
  have hlive := h.live List.mem_cons_self
  refine (ends_insertBefore s parent child none).mono ?_ ?_
  · rintro _ _ ⟨hi, before, rfl⟩
    refine ⟨h.guards.place before hi (hfresh parent hp) hchild, hfresh, fun r hr => ?_, hnodup,
      fun r hr => ?_⟩
    · exact (mem_roots_place_iff hlive).mpr ⟨htop r hr, fun he => hnot (he ▸ hr)⟩
    · obtain ⟨hroot, hne⟩ := (mem_roots_place_iff hlive).mp hr
      exact (h.only r hroot).imp_left fun hm => (List.mem_cons.mp hm).resolve_left hne
  · rintro _ rfl
    exact h.guards

/-- **A waiting node has a tree of its own, which shares no node with the guarded ones.** -/
theorem exists_top (h : s.Building ts held nodes) (hr : r ∈ nodes) :
    ∃ u ∈ s.forest.tops, u.1.ref = r ∧ ∀ x ∈ (Forest.labels u).map (·.ref), x ∉ refsOf ts := by
  obtain ⟨n, hn, rfl⟩ := List.mem_map.mp (h.top r hr)
  rw [Forest.roots_eq_map_tops] at hn
  obtain ⟨u, hu, rfl⟩ := List.mem_map.mp hn
  refine ⟨u, hu, rfl, fun x hx hm => ?_⟩
  obtain ⟨v, hv, m, hmv, rfl⟩ := mem_refsOf.mp hm
  obtain rfl := h.guards.wellFormed.top_eq hu (h.guards.tops v hv) hx (List.mem_map_of_mem hmv)
  exact h.fresh _ hr (mem_refsOf.mpr ⟨u, hv, u.1, List.mem_cons_self, rfl⟩)

end Building

theorem mem_refsOf_tops (hr : s.Live r) : r ∈ refsOf s.forest.tops := by
  rw [Live, refs, Forest.toList_eq_flatMap_tops, List.map_flatMap] at hr
  exact hr

/-- The trees of a store that have one node in common are the same. -/
theorem Guards.eq_of_common (h : s.Guards ts held) {t u : Node × Forest Node} (ht : t ∈ ts)
    (hu : u ∈ s.forest.tops) (hr : r ∈ (Forest.labels t).map (·.ref))
    (hr' : r ∈ (Forest.labels u).map (·.ref)) : t = u :=
  h.wellFormed.top_eq (h.tops t ht) hu hr hr'

end Store

namespace Scene

variable {κ : Type} {closed : Prop} {s s₀ : Scene κ} {ts : List (Node × Forest Node)}
  {held nodes : List NodeRef} {r : NodeRef}

/-! ## Building -/

theorem over_guards (h : Over s₀ (Store.Building ts held nodes) s) :
    Over s₀ (Store.Guards ts held) s :=
  ⟨h.document.mono fun _ hb => hb.guards, h.bindings, h.templates, h.callbacks⟩

theorem ends_newElement (h : Over s₀ (Store.Building ts held nodes) s) (tag : String)
    (ns : Option String) :
    Ends (newElement tag ns) s (fun r => Over s₀ (Store.Building ts held (r :: nodes)))
      (Over s₀ (Store.Guards ts held)) := by
  unfold newElement
  cases ns with
  | some ns =>
    exact (ends_onStore h (h.document.store.createElementNs (some ns) tag)).mono
      (fun _ _ ho => ho) fun _ => over_guards
  | none =>
    have hname : Ends (liftResult (validateName tag) : DocumentM Unit) s.document
        (fun _ => Document.Over s₀.document.listeners (Store.Building ts held nodes))
        (Document.Over s₀.document.listeners (Store.Guards ts held)) :=
      Ends.liftResult (fun _ _ => h.document) (over_guards h).document
    refine (ends_onDocument h hname).bind fun _ s h => ?_
    exact (ends_onStore h (h.document.store.create rfl)).mono (fun _ _ ho => ho) fun _ => over_guards

theorem ends_writeAttribute {I : Store → Prop} (hI : Store.KeptByChange r I) (h : Over s₀ I s)
    (name value : String) (ns : Option String) :
    Ends (writeAttribute r name value ns) s (fun _ => Over s₀ I) (Over s₀ I) := by
  cases ns with
  | some ns => exact ends_onStore h (Store.ends_setAttributeNs hI h.document.store (some ns) name value)
  | none => exact ends_onStore h (Store.ends_setAttribute hI h.document.store name value)

theorem ends_createDescribed (h : Over s₀ (Store.Building ts held nodes) s) (d : Descriptor) :
    Ends (createDescribed d) s (fun r => Over s₀ (Store.Building ts held (r :: nodes)))
      (Over s₀ (Store.Guards ts held)) := by
  have hleaf : ∀ {data : NodeData}, data.isDocument = false →
      Ends (onDocument (Document.onStore (modifyGet (·.create data)))) s
        (fun r => Over s₀ (Store.Building ts held (r :: nodes))) (Over s₀ (Store.Guards ts held)) :=
    fun hd => (ends_onStore h (h.document.store.create hd)).mono (fun _ _ ho => ho) fun _ => over_guards
  cases d with
  | element tag ns attributes _ _ =>
    unfold createDescribed
    refine (ends_newElement h tag ns).bind fun r s h => ?_
    have hr := h.document.store.fresh r List.mem_cons_self
    have hattr := Ends.forM (l := attributes) (fun a _ s hs =>
      ends_writeAttribute (Store.Building.keptByChange hr) hs a.name a.value a.ns) h
    exact (hattr.mono (fun _ _ ho => ho) fun _ => over_guards).bind fun _ _ h => Ends.pure h
  | text t => exact hleaf rfl
  | dynamicText => exact hleaf rfl
  | placeholder => exact hleaf rfl

theorem ends_appendChildren {parent : NodeRef} {children : List NodeRef}
    (h : Over s₀ (Store.Building ts held (children ++ nodes)) s) (hp : parent ∈ nodes) :
    Ends (children.forM fun c => (Store.appendChild parent c : SceneM κ Unit)) s
      (fun _ => Over s₀ (Store.Building ts held nodes)) (Over s₀ (Store.Guards ts held)) := by
  induction children generalizing s with
  | nil => exact Ends.pure h
  | cons c children ih =>
    have happend := ends_onStore h (h.document.store.appendChild (List.mem_append_right children hp))
    exact happend.bind fun _ _ h => ih h

/-- The nodes that elements wait with. -/
def waitingNodes (waiting : List OpenElement) : List NodeRef :=
  waiting.flatMap fun o => o.node :: o.children

theorem waitingNodes_cons (o : OpenElement) (rest : List OpenElement) :
    waitingNodes (o :: rest) = o.node :: (o.children ++ waitingNodes rest) := rfl

/-- Handing on complete nodes keeps them at the top until their parents are complete. -/
theorem ends_complete (waiting : List OpenElement)
    (h : Over s₀ (Store.Building ts held (r :: (waitingNodes waiting ++ nodes))) s) :
    Ends (complete r waiting) s
      (fun w => Over s₀ (Store.Building ts held (w.2.toList ++ (waitingNodes w.1 ++ nodes))))
      (Over s₀ (Store.Guards ts held)) := by
  induction waiting generalizing r s with
  | nil => exact Ends.pure h
  | cons o rest ih =>
    have hperm : ((o.children ++ [r]) ++ o.node :: (waitingNodes rest ++ nodes)).Perm
        (r :: (waitingNodes (o :: rest) ++ nodes)) := by
      rw [waitingNodes_cons, List.append_assoc, List.singleton_append, List.cons_append,
        List.append_assoc]
      exact List.perm_middle.trans (List.perm_middle.cons r)
    have h' : Over s₀ (Store.Building ts held
        ((o.children ++ [r]) ++ o.node :: (waitingNodes rest ++ nodes))) s :=
      ⟨h.document.mono fun _ hb => hb.perm hperm, h.bindings, h.templates, h.callbacks⟩
    unfold complete
    refine Ends.ite (fun _ => Ends.pure ?_) fun _ => ?_
    · refine ⟨h'.document.mono fun _ hb => hb.perm ?_, h.bindings, h.templates, h.callbacks⟩
      rw [waitingNodes_cons, Option.toList_none, List.nil_append, List.cons_append,
        List.append_assoc]
      exact List.perm_middle.symm
    · exact (ends_appendChildren h' List.mem_cons_self).bind fun _ _ h => ih h

/-- The nodes of an assembly. -/
def assemblyNodes (a : Assembly) : List NodeRef := waitingNodes a.waiting ++ a.roots

/-- **Building keeps what was there, and what is there in the end are the new trees.** -/
theorem ends_assemble (total : Nat) (ds : List Descriptor) {a : Assembly}
    (h : Over s₀ (Store.Building ts held (assemblyNodes a)) s) :
    Ends (assemble total ds a) s (fun a => Over s₀ (Store.Building ts held a.roots))
      (Over s₀ (Store.Guards ts held)) := by
  induction ds generalizing a s with
  | nil =>
    unfold assemble
    refine Ends.ite (fun hnone => Ends.pure ?_) fun _ => Ends.throw (over_guards h)
    rwa [assemblyNodes, List.isEmpty_iff.mp hnone] at h
  | cons d rest ih =>
    have hmark : assemblyNodes (a.mark d) = assemblyNodes a := by
      unfold Assembly.mark
      split <;> rfl
    rw [← hmark] at h
    unfold assemble
    refine (ends_createDescribed h d).bind fun r s h => ?_
    refine Ends.ite (fun _ => ih h) fun _ => ?_
    refine (ends_complete (a.mark d).waiting h).bind fun w s h => ih ?_
    refine ⟨h.document.mono fun _ hb => hb.perm ?_, h.bindings, h.templates, h.callbacks⟩
    rw [assemblyNodes, ← List.append_assoc]
    exact List.perm_append_comm

/-! ## Templates -/

/-- What is left of lists that agree when one of them is filtered. -/
theorem exists_sublist_of_map_eq {α β γ : Type} {f : α → γ} {g : β → γ} (p : α → Bool) :
    ∀ {l : List α} {m : List β}, l.map f = m.map g →
      ∃ m' : List β, m'.Sublist m ∧ (l.filter p).map f = m'.map g
  | [], _, _ => ⟨[], List.nil_sublist _, rfl⟩
  | a :: l, [], h => absurd h (by simp)
  | a :: l, b :: m, h => by
    obtain ⟨hab, hlm⟩ := List.cons.inj h
    obtain ⟨m', hs, he⟩ := exists_sublist_of_map_eq p hlm
    by_cases hp : p a = true
    · refine ⟨b :: m', hs.cons_cons b, ?_⟩
      rw [List.filter_cons_of_pos hp, List.map_cons, List.map_cons, he]
      exact congrArg (· :: m'.map g) hab
    · exact ⟨m', hs.cons b, by rw [List.filter_cons_of_neg hp, he]⟩

/-- A sound scene whose templates have trees that another one had, or new ones. -/
def Inherits (closed : Prop) (ts : List (Node × Forest Node)) (s₀ s : Scene κ) : Prop :=
  ∃ ts', s.Sound closed ts' ∧ ∀ v ∈ ts', v ∈ ts ∨ ¬ s₀.store.Live v.1.ref

/-- Frees the tree of a template that another one has taken the place of. -/
def freeReplaced : Option Template → SceneM κ Unit
  | some old => discard (Document.freeSubtree old.root)
  | none => pure ()

theorem Inherits.refl (h : s.Sound closed ts) : Inherits closed ts s₀ s := ⟨ts, h, fun _ hv => Or.inl hv⟩

namespace Sound

/-- Building starts with nothing that waits. -/
theorem building (h : s.Sound closed ts) : Over s (Store.Building s.store.forest.tops s.held []) s :=
  ⟨⟨rfl, .start ⟨h.store.wellFormed, fun _ ht => ht, h.store.live⟩⟩, rfl, rfl, rfl⟩

/-- A scene stays sound when all its trees are kept. -/
theorem of_overTops (h : s₀.Sound closed ts)
    (ho : Over s₀ (Store.Guards s₀.store.forest.tops s₀.held) s) : s.Sound closed ts :=
  h.of_over ⟨ho.document.mono fun _ hg => hg.weaken (fun t ht => h.store.tops t ht) (List.Subset.refl _),
    ho.bindings, ho.templates, ho.callbacks⟩

/-- The tree of a template. -/
theorem exists_tree (h : s.Sound closed ts) {number : UInt32} {t : Template}
    (ht : s.templates.get? number = some t) :
    ∃ u ∈ ts, u.1.ref = t.root ∧ (number, t) ∈ s.templates.entries := by
  obtain ⟨l₁, l₂, he, -⟩ := List.lookup_eq_some_iff.mp ht
  have hm : (number, t) ∈ s.templates.entries := by
    rw [he]
    exact List.mem_append_right _ List.mem_cons_self
  have hroot := List.mem_map_of_mem (f := fun e : UInt32 × Template => e.2.root) hm
  rw [h.templates] at hroot
  obtain ⟨u, hu, hur⟩ := List.mem_map.mp hroot
  exact ⟨u, hu, hur, hm⟩

/-- A template that is taken out of the list is apart from those that are left. -/
theorem notMem_rest (h : s.Sound closed ts) {number : UInt32} {old : Template}
    (hold : s.templates.get? number = some old) {rest : List (Node × Forest Node)} (hsub : rest ⊆ ts)
    (hrest : (s.templates.entries.filter (·.1 != number)).map (·.2.root) = rest.map (·.1.ref)) :
    old.root ∉ Store.refsOf rest := by
  obtain ⟨u, hu, hur, hm⟩ := h.exists_tree hold
  intro hmem
  obtain ⟨v, hv, n, hn, hnr⟩ := Store.mem_refsOf.mp hmem
  have hlabel : old.root ∈ (Forest.labels v).map (·.ref) := hnr ▸ List.mem_map_of_mem hn
  have huv : v = u := h.store.eq_of_common (hsub hv) (h.store.tops u hu) hlabel
    (hur ▸ List.mem_map_of_mem List.mem_cons_self)
  have hroots := List.mem_map_of_mem (f := fun t : Node × Forest Node => t.1.ref) hv
  rw [← hrest] at hroots
  obtain ⟨e, he, her⟩ := List.mem_map.mp hroots
  obtain ⟨hent, hne⟩ := List.mem_filter.mp he
  have hnodup := h.separate
  rw [← h.templates] at hnodup
  have heq := List.inj_on_of_nodup_map hnodup hent hm (her.trans (huv ▸ hur))
  rw [heq] at hne
  simp at hne

/-- What is held, the document and the nodes of the templates are not in a new tree. -/
theorem notMem_new (h : s.Sound closed ts) {u : Node × Forest Node}
    (hnew : ∀ x ∈ (Forest.labels u).map (·.ref), x ∉ Store.refsOf s.store.forest.tops) {x : NodeRef}
    (hx : x ∈ s.held ∨ x = .root ∨ x ∈ Store.refsOf ts) : x ∉ (Forest.labels u).map (·.ref) := by
  intro hm
  refine hnew x hm ?_
  rcases hx with hx | rfl | hx
  · exact Store.mem_refsOf_tops (h.store.live x hx)
  · exact Store.mem_refsOf_tops h.store.wellFormed.live_root
  · exact Store.refsOf_subset (fun t ht => h.store.tops t ht) hx

/-- **A new tree takes the place of the tree of a template.** -/
theorem putTemplate (h : s₀.Sound closed ts)
    (ho : Over s₀ (Store.Building s₀.store.forest.tops s₀.held [r]) s) (number : UInt32)
    {t : Template} (ht : t.root = r) :
    ∃ u rest, Sound closed (u :: rest) { s with templates := s.templates.put number t } ∧ rest ⊆ ts ∧
      (s₀.templates.entries.filter (·.1 != number)).map (·.2.root) = rest.map (·.1.ref) ∧
      ∀ x ∈ (Forest.labels u).map (·.ref), x ∉ Store.refsOf s₀.store.forest.tops := by
  obtain ⟨⟨hl, hb⟩, hbind, htemp, hcall⟩ := ho
  have hheld : s.held = s₀.held := by rw [held, held, hl, hbind]
  obtain ⟨u, hu, hur, hnew⟩ := hb.exists_top List.mem_cons_self
  obtain ⟨rest, hsub, hrest⟩ := exists_sublist_of_map_eq (·.1 != number) h.templates
  have hout : ∀ x, (x ∈ s₀.held ∨ x = .root ∨ x ∈ Store.refsOf ts) → x ∉ Store.refsOf rest →
      x ∉ Store.refsOf (u :: rest) := fun x hx hn hm =>
    (Store.mem_refsOf_cons.mp hm).elim (h.notMem_new hnew hx) hn
  have hrefs : Store.refsOf rest ⊆ Store.refsOf ts := Store.refsOf_subset hsub.subset
  refine ⟨u, rest, ⟨?_, ?_, ?_, ?_, ?_, ?_, fun x hx => ?_, ?_⟩, hsub.subset, hrest, hnew⟩
  · refine ⟨hb.guards.wellFormed, List.forall_mem_cons.mpr ⟨hu, fun v hv => ?_⟩, fun x hx => ?_⟩
    · exact hb.guards.tops v (h.store.tops v (hsub.subset hv))
    · exact hb.guards.live x (hheld ▸ hx)
  · exact hbind ▸ h.bindings
  · exact hl ▸ h.listeners
  · intro hclosed
    refine ⟨hl ▸ (h.counted hclosed).ours, ?_⟩
    change s.callbacks.Tallies s.document.listeners.uses
    rw [hcall, hl]
    exact (h.counted hclosed).callbacks
  · change (t.root :: (s.templates.entries.filter (·.1 != number)).map (·.2.root)) = _
    rw [htemp, hrest, ht, ← hur]
    rfl
  · refine List.nodup_cons.mpr ⟨fun hm => ?_, h.separate.sublist (hsub.map _)⟩
    obtain ⟨v, hv, hvu⟩ := List.mem_map.mp hm
    have hroot : v.1.ref ∈ Store.refsOf ts :=
      Store.mem_refsOf.mpr ⟨v, hsub.subset hv, v.1, List.mem_cons_self, rfl⟩
    exact h.notMem_new hnew (Or.inr (Or.inr hroot)) (List.mem_map.mpr ⟨u.1, List.mem_cons_self, hvu.symm⟩)
  · have hx₀ : x ∈ s₀.held := hheld ▸ hx
    exact hout x (Or.inl hx₀) fun hm => h.quiet x hx₀ (hrefs hm)
  · exact hout .root (Or.inr (Or.inl rfl)) fun hm => h.outside (hrefs hm)

/-- The nodes of a template are not held, also when other nodes are added. -/
theorem notMem_descendants (h : s.Sound closed ts) {number : UInt32} {old : Template}
    (hold : s.templates.get? number = some old) {st : Store}
    (hg : st.Guards s.store.forest.tops s.held) {x : NodeRef} (hx : x ∈ s.held) :
    x ∉ st.descendants old.root := by
  intro hd
  obtain ⟨v, hv, hvr, -⟩ := h.exists_tree hold
  have htop := hg.tops v (h.store.tops v hv)
  have htree := hg.wellFormed.tree?_eq_some (Forest.mem_trees_of_mem_tops htop)
  rw [← hvr, Store.descendants_of_tree? htree] at hd
  obtain ⟨n, hn, hnr⟩ := List.mem_map.mp hd
  exact h.quiet x hx (Store.mem_refsOf.mpr ⟨v, hv, n, hn, hnr⟩)

/-- **A new tree is put in the place of the tree of a template, which is freed.** -/
theorem ends_replaceTemplate (h : s.Sound closed ts) {s' : Scene κ}
    (ho : Over s (Store.Building s.store.forest.tops s.held [r]) s') (number : UInt32) {t : Template}
    (ht : t.root = r) :
    ∃ u rest, u.1.ref = r ∧ u ∈ s'.store.forest.tops ∧ (∀ v ∈ u :: rest, v ∈ ts ∨ ¬ s.store.Live v.1.ref) ∧
      Ends (freeReplaced (s.templates.get? number)) { s' with templates := s'.templates.put number t }
        (fun _ => Sound closed (u :: rest)) (Sound closed (u :: rest)) := by
  obtain ⟨u, rest, hs, hsub, hrest, hnew⟩ := h.putTemplate ho number ht
  have hfrom : ∀ v ∈ u :: rest, v ∈ ts ∨ ¬ s.store.Live v.1.ref := by
    refine List.forall_mem_cons.mpr ⟨Or.inr fun hl => ?_, fun v hv => Or.inl (hsub hv)⟩
    exact hnew u.1.ref List.mem_cons_self (Store.mem_refsOf_tops hl)
  have hroot : u.1.ref = r := (List.cons.inj hs.templates).1.symm.trans ht
  refine ⟨u, rest, hroot, hs.store.tops u List.mem_cons_self, hfrom, ?_⟩
  unfold freeReplaced
  split
  · rename_i old hget
    have hr : old.root ∉ Store.refsOf (u :: rest) := by
      obtain ⟨v, hv, hvr, -⟩ := h.exists_tree hget
      have hroot : old.root ∈ Store.refsOf ts :=
        Store.mem_refsOf.mpr ⟨v, hv, v.1, List.mem_cons_self, hvr⟩
      exact fun hm => (Store.mem_refsOf_cons.mp hm).elim
        (h.notMem_new hnew (Or.inr (Or.inr hroot))) (h.notMem_rest hget hsub hrest)
    have hheld : s'.held = s.held := by rw [held, held, ho.document.listeners, ho.bindings]
    have hfree := Document.ends_freeSubtree ⟨rfl, hs.store⟩ hr fun x hx =>
      h.notMem_descendants hget ho.document.store.guards ?_
    · refine (ends_onDocument hs.overSelf hfree).discard.mono ?_ fun _ ho => hs.of_over ho
      rintro _ _ ⟨_, ho⟩
      exact hs.of_over ho
    · rw [← hheld]
      exact (List.mem_append.mp hx).elim id (List.mem_append_right _)
  · exact Ends.pure hs

/-- **Defining a template keeps a scene sound, and the trees of all templates that stay.** -/
theorem saveTemplate (h : s.Sound closed ts) (number : UInt32) (ds : List Descriptor) :
    Ends (saveTemplate number ds) s (fun _ => Inherits closed ts s) (Inherits closed ts s) := by
  have hback : ∀ s', Over s (Store.Guards s.store.forest.tops s.held) s' → Inherits closed ts s s' :=
    fun s' ho => .refl (h.of_overTops ho)
  unfold Scene.saveTemplate
  refine Ends.get_bind (Ends.ite (fun _ => Ends.pure (.refl h)) fun _ => ?_)
  refine ((ends_assemble ds.length ds h.building).mono (fun _ _ ho => ho) hback).bind fun a s' ho => ?_
  split
  · rename_i root hroots
    have hwait : Over s (Store.Building s.store.forest.tops s.held [root]) s' := hroots ▸ ho
    obtain ⟨u, rest, -, -, hfrom, hend⟩ :=
      h.ends_replaceTemplate (t := ⟨ds, root, a.slots⟩) hwait number rfl
    refine (Ends.modify (Q := fun _ s'' => s'' = _) rfl).bind ?_
    rintro _ _ rfl
    exact hend.mono (fun _ _ hs => ⟨_, hs, hfrom⟩) fun _ hs => ⟨_, hs, hfrom⟩
  · exact Ends.throw (hback s' (over_guards ho))

theorem tieSlots (h : s.Sound closed ts) {t : Template} {root : NodeRef} (hl : s.store.Live root)
    (hr : root ∉ Store.refsOf ts) (slots : List (List Nat × NodeId)) :
    Ends (tieSlots t root slots) s (fun _ s => s.Sound closed ts ∧ s.store.Live root) (Sound closed ts) := by
  induction slots generalizing s with
  | nil => exact Ends.pure ⟨h, hl⟩
  | cons slot rest ih =>
    obtain ⟨path, id⟩ := slot
    unfold Scene.tieSlots
    refine Ends.get_bind ?_
    split
    · rename_i r hpath
      obtain ⟨hrl, hrn⟩ := h.store.childAtPath?_spec hl hr hpath
      refine (Ends.modify (Q := fun _ s => s.Sound closed ts ∧ s.store.Live root)
        ⟨h.tie id hrl hrn, hl⟩).bind fun _ s hs => ih hs.1 hs.2
    · exact Ends.throw_bind h

/-- **A copy of a template is a live tree outside the templates.** -/
theorem instantiate (h : s.Sound closed ts) (number : UInt32) (ids : List NodeId) :
    Ends (instantiate number ids) s
      (fun r s => s.Sound closed ts ∧ s.store.Live r ∧ r ∉ Store.refsOf ts) (Sound closed ts) := by
  unfold Scene.instantiate
  refine Ends.get_bind ?_
  split
  · exact Ends.throw h
  · rename_i t _
    refine Ends.ite (fun _ => Ends.throw_bind h) fun _ => ?_
    refine (h.onStore_new fun held st hg => hg.cloneSubtree).bind fun root s hs => ?_
    refine (hs.1.tieSlots hs.2.1 hs.2.2 _).bind fun _ s hs' => ?_
    exact Ends.pure ⟨hs'.1, hs'.2, hs.2.2⟩

end Sound

end Scene

end DomHost
