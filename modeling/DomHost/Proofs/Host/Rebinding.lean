import DomHost.Proofs.Host.Moments
import DomHost.Proofs.Scene.Frame
import DomHost.Proofs.Scene.NewNodes

/-!
# Which ids an instruction moves

An instruction binds the ids it names, and unbinds those of the nodes it gives up. Every other id stays
bound to its node, and the node stays live.

* `Scene.rebound`, `Scene.touched`: the ids that change, and those that an instruction may change;
* `Scene.Sound.rebound_remove`, `Scene.Sound.rebound_replace`, `Scene.Sound.rebound_assign`: the
  instructions that give up nodes;
* **`Scene.Sound.ends_touched`**: an instruction changes the ids it may change, and no others;
* **`Host.rebound_execute`**: so it does at every moment of a run.
-/

namespace DomHost

/-- Does the instruction bind an id? Such an instruction need not change all the ids that it may. -/
def Instruction.binds : Instruction → Bool
  | .createElement .. | .createText .. | .createPlaceholder _ | .loadTemplate .. | .bindElementById .. =>
    true
  | _ => false

namespace Scene

variable {κ : Type} {closed : Prop} {s t : Scene κ} {ts : List (Node × Forest Node)} {r : NodeRef}
  {id j : NodeId} {gone : NodeRef → Prop}

/-- The ids that are bound to certain nodes. -/
def idsAt (s : Scene κ) (P : NodeRef → Prop) : Set NodeId := {j | ∃ x, s.bindings.get? j = some x ∧ P x}

/-- The ids that are not bound as they were. -/
def rebound (s t : Scene κ) : Set NodeId := {j | t.bindings.get? j ≠ s.bindings.get? j}

/-- Is the node strictly below the node of an id? -/
def Under (s : Scene κ) (id : NodeId) (x : NodeRef) : Prop :=
  ∃ r, s.bindings.get? id = some r ∧ x ∈ s.store.descendants r ∧ x ≠ r

/-- Is the node at or below the node of an id, which is attached and has none of the given ids, and at or
below none of the nodes of these ids? -/
def GivesWay (s : Scene κ) (id : NodeId) (ids : List NodeId) (x : NodeRef) : Prop :=
  ∃ r, s.bindings.get? id = some r ∧ (s.store.parent? r).isSome ∧ x ∈ s.store.descendants r ∧
    ∀ i ∈ ids, ∀ c, s.bindings.get? i = some c → c ≠ r ∧ x ∉ s.store.descendants c

/-- The ids that an instruction may bind anew or unbind. -/
def touched (s : Scene κ) : Instruction → Set NodeId
  | .createElement id _ _ | .createText id _ | .createPlaceholder id => {id}
  | .loadTemplate _ id slots => {j | j = id ∨ j ∈ slots}
  | .bindElementById id domId =>
    {j | j = id ∨ ∃ r, s.document.elementById? domId = some r ∧ s.bindings.idOf? r = some j}
  | .freeId id => {j | j = id ∧ (s.bindings.get? id).isSome}
  | .remove id => s.idsAt fun x => ∃ r, s.bindings.get? id = some r ∧ x ∈ s.store.descendants r
  | .replaceWith id ids => s.idsAt (s.GivesWay id ids)
  | .setProperty id .innerHtml _ | .setProperty id .textContent _ => s.idsAt (s.Under id)
  | _ => ∅

/-! ## Ids that change -/

theorem rebound_of_unbinds (h : s.bindings.Unbinds gone t.bindings) : s.rebound t = s.idsAt gone := by
  ext j
  constructor
  · intro hj
    by_contra hn
    exact hj (h.spares j fun x hx hg => hn ⟨x, hx, hg⟩)
  · rintro ⟨x, hx, hg⟩ he
    exact ((h j x).mp (he.trans hx)).2 hg

theorem rebound_eq_empty (h : ∀ j, t.bindings.get? j = s.bindings.get? j) : s.rebound t = ∅ :=
  Set.eq_empty_iff_forall_notMem.mpr fun j hj => hj (h j)

theorem idsAt_congr {P Q : NodeRef → Prop} (h : ∀ j x, s.bindings.get? j = some x → (P x ↔ Q x)) :
    s.idsAt P = s.idsAt Q := by
  ext j
  exact exists_congr fun x => and_congr_right fun hx => h j x hx

theorem rebound_self (s : Scene κ) {J : Set NodeId} : s.rebound s ⊆ J := by
  rw [rebound_eq_empty fun _ => rfl]
  exact Set.empty_subset J

/-! ## The ids that instructions name by a node -/

theorem touched_remove (hw : s.store.WellFormed) (hr : s.bindings.get? id = some r) :
    s.touched (.remove id) = s.idsAt (r ∈ s.store.ancestors ·) :=
  idsAt_congr fun j x _ => by simp [hr, hw.mem_descendants_iff]

theorem touched_replaceWith (hw : s.store.WellFormed) (hr : s.bindings.get? id = some r)
    {ids : List NodeId} {rs : List NodeRef} (hrs : ids.map s.bindings.get? = rs.map some) :
    s.touched (.replaceWith id ids) = s.idsAt fun x => (s.store.parent? r).isSome ∧
      r ∈ s.store.ancestors x ∧ ∀ c ∈ rs, c ≠ r ∧ c ∉ s.store.ancestors x := by
  refine idsAt_congr fun j x _ => ?_
  simp only [GivesWay, hr, Option.some.injEq, exists_eq_left', hw.mem_descendants_iff, mem_nodes_iff hrs,
    forall_exists_index, and_imp]
  exact and_congr_right fun _ => and_congr_right fun _ =>
    ⟨fun hn c i hi hc => hn i hi c hc, fun hn i hi c hc => hn c i hi hc⟩

theorem touched_content (hw : s.store.WellFormed) (hr : s.bindings.get? id = some r) {property : Property}
    (hp : property = .innerHtml ∨ property = .textContent) (value : String) :
    s.touched (.setProperty id property value) = s.idsAt fun x => r ∈ s.store.ancestors x ∧ x ≠ r := by
  have hunder : s.touched (.setProperty id property value) = s.idsAt (s.Under id) := by
    rcases hp with rfl | rfl <;> rfl
  rw [hunder]
  exact idsAt_congr fun j x _ => by simp [Under, hr, hw.mem_descendants_iff]

namespace Sound

/-! ## Giving up nodes -/

theorem rebound_remove (h : s.Sound closed ts) (r : NodeRef) :
    Ends (Scene.releaseSubtree r) s (fun _ t => s.rebound t = s.idsAt (r ∈ s.store.ancestors ·))
      fun t => s.rebound t ⊆ s.idsAt (r ∈ s.store.ancestors ·) :=
  (h.ends_releaseSubtree r).mono (fun _ _ ht => rebound_of_unbinds ht.2.2.2.bindings)
    fun _ ht => (rebound_of_unbinds ht.2.2).subset

/-- **A node that gives way takes along the ids of all nodes that stay below it.** -/
theorem rebound_replace (h : s.Sound closed ts) (hr : r ∉ Store.refsOf ts) {rs : List NodeRef}
    (hrs : ∀ c ∈ rs, c ∉ Store.refsOf ts) :
    Ends (Scene.replace r rs) s
      (fun _ t => s.rebound t = s.idsAt fun x => (s.store.parent? r).isSome ∧ r ∈ s.store.ancestors x ∧
        ∀ c ∈ rs, c ≠ r ∧ c ∉ s.store.ancestors x)
      fun t => s.rebound t ⊆ s.idsAt fun x => (s.store.parent? r).isSome ∧ r ∈ s.store.ancestors x ∧
        ∀ c ∈ rs, c ≠ r ∧ c ∉ s.store.ancestors x := by
  have hempty : ∀ {P : NodeRef → Prop}, (∀ x, ¬ P x) → s.idsAt P = ∅ := fun hP =>
    Set.eq_empty_iff_forall_notMem.mpr fun _ ⟨x, _, hx⟩ => hP x hx
  have hmove := (ends_onStore s.over_self (h.store.wellFormed.ends_replaceWith r rs)).and
    (h.onStore fun _ _ hg => hg.replaceWith hr hrs)
  unfold Scene.replace
  refine Ends.get_bind ((hmove.mono (fun _ _ ht => ht) fun t ht => ?_).bind ?_)
  · rw [rebound_eq_empty fun j => by rw [ht.1.bindings]]
    exact Set.empty_subset _
  rintro _ t ⟨ho, ht⟩
  have hsame : s.rebound t = ∅ := rebound_eq_empty fun j => by rw [ho.bindings]
  refine Ends.ite (fun hgive => ?_) fun hgive => Ends.pure ?_
  · rw [Bool.and_eq_true, Bool.not_eq_true', ← Bool.not_eq_true, List.contains_iff_mem] at hgive
    obtain ⟨p, hp⟩ := Option.isSome_iff_exists.mp hgive.1
    have hplace := ho.document.store
    simp only [hp, Option.elim_some, if_neg hgive.2] at hplace
    have hiff : t.idsAt (r ∈ t.store.ancestors ·) = s.idsAt fun x => (s.store.parent? r).isSome ∧
        r ∈ s.store.ancestors x ∧ ∀ c ∈ rs, c ≠ r ∧ c ∉ s.store.ancestors x := by
      have hne : ∀ c ∈ rs, c ≠ r := fun c hc he => hgive.2 (he ▸ hc)
      ext j
      rw [idsAt, idsAt, ho.bindings]
      refine exists_congr fun x => and_congr_right fun _ => ?_
      rw [and_iff_right hgive.1]
      refine (hplace.mem_ancestors_iff (x := x)).trans (and_congr_right fun _ => ?_)
      exact forall₂_congr fun c hc => (and_iff_right (hne c hc)).symm
    have hrebound : ∀ u, t.rebound u = s.rebound u := fun u => by rw [rebound, rebound, ho.bindings]
    rw [← hiff]
    exact (ht.rebound_remove r).mono (fun _ u hu => hrebound u ▸ hu) fun u hu => hrebound u ▸ hu
  · rw [hsame, hempty]
    rintro x ⟨hattached, -, hn⟩
    refine hgive ?_
    rw [Bool.and_eq_true, Bool.not_eq_true', ← Bool.not_eq_true, List.contains_iff_mem]
    exact ⟨hattached, fun hm => (hn r hm).1 rfl⟩

/-- **Content that is assigned takes the place of all nodes below, whose ids are unbound.** -/
theorem rebound_assign (h : s.Sound closed ts) (hr : r ∉ Store.refsOf ts) {property : Property}
    (hp : property = .innerHtml ∨ property = .textContent) (value : String) :
    Ends (Scene.assign r property value) s
      (fun _ t => s.rebound t = s.idsAt fun x => r ∈ s.store.ancestors x ∧ x ≠ r)
      fun t => s.rebound t ⊆ s.idsAt fun x => r ∈ s.store.ancestors x ∧ x ≠ r := by
  have hkeep : ∀ (x : DocumentM Unit) (t : Scene κ),
      (s.rebound t = s.idsAt fun x => r ∈ s.store.ancestors x ∧ x ≠ r) →
      Ends (Scene.onDocument x) t
        (fun _ t => s.rebound t = s.idsAt fun x => r ∈ s.store.ancestors x ∧ x ≠ r)
        fun t => s.rebound t ⊆ s.idsAt fun x => r ∈ s.store.ancestors x ∧ x ≠ r := by
    intro x t ht
    refine (keeps_onDocument lasting_bindings x t).mono (fun _ u hu => ?_) fun u hu => ?_
    · rw [rebound, hu]
      exact ht
    · rw [rebound, hu]
      exact ht.subset
  unfold Scene.assign
  rcases hp with rfl | rfl
  · have hadd := (ends_onDocument s.over_self
      (Document.ends_addFragment_adds h.store.wellFormed r value)).and
        (ends_onDocument h.overSelf (Document.ends_addFragment ⟨rfl, h.store⟩ r value))
    refine (hadd.mono (fun _ _ ht => ht) fun t ht => ?_).bind ?_
    · rw [rebound_eq_empty fun j => by rw [ht.1.bindings]]
      exact Set.empty_subset _
    rintro rs t ⟨ho, hg⟩
    have ht : t.Sound closed ts :=
      h.of_over ⟨hg.document.mono fun _ hp => hp.1, hg.bindings, hg.templates, hg.callbacks⟩
    -- new nodes have no ids, and the others are where they were
    have hids : (t.idsAt fun x => r ∈ t.store.ancestors x ∧ x ≠ r) =
        s.idsAt fun x => r ∈ s.store.ancestors x ∧ x ≠ r := by
      rw [idsAt, ho.bindings]
      refine idsAt_congr fun j x hx => ?_
      have hlive := h.store.live x (List.mem_append_left _ (Bindings.mem_nodes_of_get? hx))
      have hup : t.store.ancestors x = s.store.ancestors x := ho.document.store.ancestors x hlive
      rw [hup]
    refine ((ht.ends_releaseChildren hr).mono (fun _ _ hu => hu) fun _ he => he.elim).bind ?_
    rintro _ u ⟨-, hd⟩
    refine hkeep _ u ?_
    rw [← hids, ← rebound_of_unbinds hd.bindings, rebound, rebound, ho.bindings]
  · refine ((h.ends_releaseChildren hr).mono (fun _ _ hu => hu) fun _ he => he.elim).bind ?_
    exact fun _ u hu => hkeep _ u (rebound_of_unbinds hu.2.bindings)

/-! ## Binding ids -/

/-- An id that moves to a node takes the place of the id of the node. -/
theorem rebound_bind (h : s.Sound closed ts) (id : NodeId) (hl : s.store.Live r) (hr : r ∉ Store.refsOf ts) :
    Ends (Scene.bind id r) s (fun _ t => s.rebound t ⊆ {j | j = id ∨ s.bindings.idOf? r = some j})
      fun _ => False := by
  refine (h.ends_bind id hl hr).mono (fun _ t ht j hj => ?_) fun _ he => he
  by_contra hn
  obtain ⟨hne, hown⟩ := not_or.mp hn
  refine hj ?_
  rw [ht.1, h.bindings.get?_bind, if_neg hne, if_neg hown]

/-- **An id moves to a new node, whatever was done to other ids meanwhile.** -/
theorem rebound_bind_new (h : s.Sound closed ts) {ids : List NodeId} (ht : t.Sound closed ts)
    (hsame : ∀ j, j ∉ ids → t.bindings.get? j = s.bindings.get? j) (hnew : ¬ s.store.Live r) (id : NodeId)
    (hl : t.store.Live r) (hr : r ∉ Store.refsOf ts) :
    Ends (Scene.bind id r) t (fun _ u => s.rebound u ⊆ {j | j = id ∨ j ∈ ids}) fun _ => False := by
  refine (ht.rebound_bind id hl hr).mono (fun _ u hu j hj => ?_) fun _ he => he
  by_contra hn
  obtain ⟨hne, hids⟩ := not_or.mp hn
  rcases hu (show j ∈ t.rebound u from fun he => hj (he.trans (hsame j hids))) with he | hown
  · exact hne he
  · rw [← ht.bindings.get?_eq_some_iff_idOf?, hsame j hids] at hown
    exact hnew (h.store.live r (List.mem_append_left _ (Bindings.mem_nodes_of_get? hown)))

/-- An id is given up, with a tree that nothing reaches any more. -/
theorem rebound_freeId (h : s.Sound closed ts) (id : NodeId) :
    Ends (Scene.execute (.freeId id)) s
      (fun _ t => s.rebound t = {j | j = id ∧ (s.bindings.get? id).isSome}) fun _ => False := by
  refine Ends.get_bind ?_
  split
  · rename_i r hr
    refine (Ends.modify (f := fun s : Scene κ => { s with bindings := s.bindings.release id })
      (Q := fun _ t => t = { s with bindings := s.bindings.release id }) rfl).bind ?_
    rintro _ _ rfl
    refine ((h.release id).ends_reclaim r).mono (fun _ t ht => ?_) fun _ he => he
    ext j
    change t.bindings.get? j ≠ s.bindings.get? j ↔ _
    rw [ht.1 j, Bindings.get?_release]
    by_cases hj : j = id
    · simp [hj, hr]
    · simp [hj]
  · rename_i hr
    refine Ends.pure ?_
    rw [rebound_eq_empty fun _ => rfl]
    exact (Set.eq_empty_iff_forall_notMem.mpr fun j hj => by simp [hr] at hj).symm

/-- A copy of a prototype binds its slots, and then its own id. -/
theorem rebound_loadTemplate (h : s.Sound closed ts) (number : UInt32) (id : NodeId) (slots : List NodeId) :
    Ends (Scene.execute (.loadTemplate number id slots)) s
      (fun _ t => s.rebound t ⊆ {j | j = id ∨ j ∈ slots}) fun t => s.rebound t ⊆ {j | j = id ∨ j ∈ slots} := by
  have hcopy := (h.ends_instantiate number slots).and (h.instantiate number slots)
  refine (hcopy.mono (fun _ _ ht => ht) fun t ht j hj => Or.inr ?_).bind ?_
  · by_contra hn
    exact hj (ht.1 j hn)
  · rintro r t ⟨⟨ha, hset⟩, ht, hl, hr⟩
    have hnew := (ha.fresh r (List.mem_singleton_self r)).1
    exact (h.rebound_bind_new ht hset.others hnew id hl hr).mono (fun _ _ hu => hu) fun _ he => he.elim

/-- An element that is found by its attribute gives up the id it had. -/
theorem rebound_bindElementById (h : s.Sound closed ts) (id : NodeId) (domId : String) :
    Ends (Scene.execute (.bindElementById id domId)) s
      (fun _ t => s.rebound t ⊆ s.touched (.bindElementById id domId))
      fun t => s.rebound t ⊆ s.touched (.bindElementById id domId) := by
  refine Ends.get_bind ?_
  split
  · rename_i r he
    obtain ⟨hl, hr⟩ := h.elementById?_spec he
    refine (h.rebound_bind id hl hr).mono (fun _ t ht j hj => ?_) fun _ he => he.elim
    exact (ht hj).imp_right fun hown => ⟨r, he, hown⟩
  · exact Ends.throw (rebound_self s)

/-! ## Instructions -/

/-- A new node gets an id. -/
theorem rebound_create (h : s.Sound closed ts) {x : SceneM κ NodeRef}
    (hx : Ends x s (fun r t => Over s (s.store.Adds [r]) t) (Over s (· = s.store)))
    (hs : Ends x s (fun r t => t.Sound closed ts ∧ t.store.Live r ∧ r ∉ Store.refsOf ts) (Sound closed ts))
    (id : NodeId) :
    Ends (x >>= Scene.bind id) s (fun _ t => s.rebound t ⊆ {id}) fun t => s.rebound t ⊆ {id} := by
  refine ((hx.and hs).mono (fun _ _ ht => ht) fun t ht => ?_).bind ?_
  · rw [rebound_eq_empty fun j => by rw [ht.1.bindings]]
    exact Set.empty_subset _
  rintro r t ⟨ho, ht, hl, hr⟩
  have hnew : ¬ s.store.Live r := (ho.document.store.fresh r (List.mem_singleton_self r)).1
  have hsame : ∀ j, j ∉ ([] : List NodeId) → t.bindings.get? j = s.bindings.get? j := fun j _ => by
    rw [ho.bindings]
  refine (h.rebound_bind_new ht hsame hnew id hl hr).mono (fun _ u hu j hj => ?_) fun _ he => he.elim
  exact (hu hj).elim (fun he => he) fun hm => absurd hm List.not_mem_nil

/-- **An instruction changes no id that it may not change; one that binds no id changes all that it may.** -/
theorem ends_touched (h : s.Sound closed ts) (i : Instruction) :
    Ends (Scene.execute i) s
      (fun _ t => s.rebound t ⊆ s.touched i ∧ (i.binds = false → s.rebound t = s.touched i))
      fun t => s.rebound t ⊆ s.touched i := by
  have hw := h.store.wellFormed
  have hexact : Ends (Scene.execute i) s (fun _ t => s.rebound t = s.touched i)
      (fun t => s.rebound t ⊆ s.touched i) → Ends (Scene.execute i) s
        (fun _ t => s.rebound t ⊆ s.touched i ∧ (i.binds = false → s.rebound t = s.touched i))
        fun t => s.rebound t ⊆ s.touched i :=
    fun he => he.mono (fun _ _ ht => ⟨ht.subset, fun _ => ht⟩) fun _ ht => ht
  have hsome : i.binds = true → Ends (Scene.execute i) s (fun _ t => s.rebound t ⊆ s.touched i)
      (fun t => s.rebound t ⊆ s.touched i) → Ends (Scene.execute i) s
        (fun _ t => s.rebound t ⊆ s.touched i ∧ (i.binds = false → s.rebound t = s.touched i))
        fun t => s.rebound t ⊆ s.touched i :=
    fun hb he => he.mono (fun _ _ ht => ⟨ht, fun hn => absurd (hb.symm.trans hn) (by decide)⟩) fun _ ht => ht
  have hquiet : i.movesIds = false → s.touched i = ∅ →
      Ends (Scene.execute i) s (fun _ t => s.rebound t = s.touched i)
        fun t => s.rebound t ⊆ s.touched i := by
    intro hi hempty
    have hsame : ∀ t : Scene κ, t.bindings = s.bindings → s.rebound t = s.touched i := fun t ht => by
      rw [hempty, rebound_eq_empty fun j => by rw [ht]]
    exact (bindings_execute hi s).mono (fun _ t ht => hsame t ht) fun t ht => (hsame t ht).subset
  cases i with
  | createElement id tag ns =>
    exact hsome rfl (h.rebound_create (ends_newElement_adds hw tag ns) (h.newElement tag ns) id)
  | createText id text =>
    exact hsome rfl (h.rebound_create (ends_onStore_adds (Ends.modifyGet (hw.adds_create rfl)))
      (h.onStore_new fun _ _ hg => hg.create rfl) id)
  | createPlaceholder id =>
    exact hsome rfl (h.rebound_create (ends_onStore_adds (Ends.modifyGet (hw.adds_create rfl)))
      (h.onStore_new fun _ _ hg => hg.create rfl) id)
  | loadTemplate number id slots => exact hsome rfl (h.rebound_loadTemplate number id slots)
  | bindElementById id domId => exact hsome rfl (h.rebound_bindElementById id domId)
  | remove id =>
    refine hexact (ends_withNode s.rebound_self fun r hr => ?_)
    rw [touched_remove hw hr]
    exact h.rebound_remove r
  | replaceWith id ids =>
    refine hexact (ends_withNode s.rebound_self fun r hr => ends_withNodes s.rebound_self fun rs hrs => ?_)
    rw [touched_replaceWith hw hr hrs]
    refine h.rebound_replace (h.notMem_of_get? hr) fun c hc => ?_
    obtain ⟨i, -, hi⟩ := (mem_nodes_iff hrs).mp hc
    exact h.notMem_of_get? hi
  | freeId id => exact hexact ((h.rebound_freeId id).mono (fun _ _ ht => ht) fun _ he => he.elim)
  | setProperty id property value =>
    by_cases hp : property = .innerHtml ∨ property = .textContent
    · refine hexact (ends_withNode s.rebound_self fun r hr => ?_)
      rw [touched_content hw hr hp]
      exact h.rebound_assign (h.notMem_of_get? hr) hp value
    · refine hexact (hquiet ?_ ?_)
      · cases property <;> simp_all [Instruction.movesIds, Property.isContent]
      · cases property <;> simp_all [touched]
  | _ => exact hexact (hquiet rfl rfl)

end Sound

/-- The ids that an instruction may not change stay bound to their nodes, and these stay live. -/
structure Frames (i : Instruction) (s t : Scene κ) : Prop where
  rebound : s.rebound t ⊆ s.touched i
  others : ∀ j, j ∉ s.touched i → ∀ r, s.bindings.get? j = some r →
    t.bindings.get? j = some r ∧ (t.store.get? r).isSome

theorem Sound.frames (h : t.Sound closed ts) {i : Instruction} (hr : s.rebound t ⊆ s.touched i) :
    s.Frames i t := by
  refine ⟨hr, fun j hj r hjr => ?_⟩
  have hsame : t.bindings.get? j = some r := by
    by_contra hn
    exact hj (hr fun he => hn (he.trans hjr))
  have hlive := h.store.live r (List.mem_append_left _ (Bindings.mem_nodes_of_get? hsame))
  exact ⟨hsame, Store.get?_isSome_iff.mpr hlive⟩

end Scene

namespace Host

/-- **At every moment of a run, an instruction changes no ids but those that it may change, and all of these
if it binds none and succeeds.** -/
theorem rebound_execute {d : Document} (hd : d.Whole) (buffer : SharedBuffer) (delegates : Bool)
    {calls : List Call} (hp : (opened d buffer delegates).Permits calls) {s : Scene Reaction}
    (hm : s ∈ (opened d buffer delegates).moments calls) (i : Instruction) :
    Ends (Scene.execute i) s
      (fun _ t => s.Frames i t ∧ (i.binds = false → s.rebound t = s.touched i)) fun t => s.Frames i t := by
  obtain ⟨ts, hs⟩ := isSound_of_mem_moments ⟨[], Scene.sound_of_whole hd⟩ hp hm
  refine ((hs.ends_touched i).and (hs.execute i)).mono (fun _ t ht => ?_) fun t ht => ?_
  · obtain ⟨⟨hsub, hall⟩, ts', ht', -⟩ := ht
    exact ⟨ht'.frames hsub, hall⟩
  · obtain ⟨hsub, ts', ht', -⟩ := ht
    exact ht'.frames hsub

/-- A removed element takes along the id of the text in it. -/
theorem exists_rebound_execute : ∃ calls, (opened .new (.new 1 1) false).Permits calls ∧
    ∃ s ∈ (opened .new (.new 1 1) false).moments calls,
      (∃ r x, s.bindings.get? ⟨1⟩ = some r ∧ s.bindings.get? ⟨2⟩ = some x ∧ x ∈ s.store.descendants r) ∧
      Ends (Scene.execute (.remove ⟨1⟩)) s
        (fun _ t => s.Frames (.remove ⟨1⟩) t ∧
          (Instruction.binds (.remove ⟨1⟩) = false → s.rebound t = s.touched (.remove ⟨1⟩)))
        fun t => s.Frames (.remove ⟨1⟩) t := by
  let edits := Instruction.encodeAll
    [.createElement ⟨1⟩ "p" none, .createText ⟨2⟩ "x", .appendChildren ⟨1⟩ [⟨2⟩]]
  obtain ⟨calls, hp, hbound⟩ : ∃ calls, (opened .new (.new 1 1) false).Permits calls ∧
      ∃ r x, (calls.foldl Call.apply (opened .new (.new 1 1) false)).scene.bindings.get? ⟨1⟩ = some r ∧
        (calls.foldl Call.apply (opened .new (.new 1 1) false)).scene.bindings.get? ⟨2⟩ = some x ∧
        x ∈ (calls.foldl Call.apply (opened .new (.new 1 1) false)).scene.store.descendants r :=
    ⟨[.changeMemory { bytes := edits.toArray, maxPages := 1 }, .applyEdits 0 edits.length],
      by decide +kernel, .cell 4 0, .cell 5 0, by decide +kernel, by decide +kernel, by decide +kernel⟩
  have hm := scene_foldl_apply_mem_moments (opened .new (.new 1 1) false) calls
  exact ⟨calls, hp, _, hm, hbound,
    rebound_execute Document.whole_new (.new 1 1) false hp hm (.remove ⟨1⟩)⟩

end Host

end DomHost
