import DomHost.Proofs.Scene.Loose

/-!
# Instructions that leave no node behind

An instruction may take nodes out of a detached tree, or their ids from them. It looks after the trees whose
tops it is given, so these are moved, freed or still reached. Any other tree is left behind if it loses all
that reached it.

* `Scene.looks`, `Scene.loses`: the trees an instruction looks after, and the nodes it takes away;
* `Scene.Spares`: every detached tree is looked after or keeps an id;
* `Scene.costs_of_moves`, **`Scene.Sound.leaves_insert`**: instructions that move nodes;
* `Scene.costs_of_release`, **`Scene.Sound.leaves_replaceWith`**: instructions that give up nodes;
* **`Scene.Sound.shifts_assign`**: content that is assigned.
-/

namespace DomHost

namespace Instruction

/-- The ids whose nodes an instruction looks after, if they are the tops of detached trees. -/
def handled : Instruction → List NodeId
  | createElement id _ _ | createText id _ | createPlaceholder id | bindElementById id _ | remove id |
    freeId id => [id]
  | loadTemplate _ id slots => if id ∈ slots then [] else [id]
  | appendChildren _ ids | insertBefore _ ids | insertAfter _ ids | replaceWith _ ids => ids
  | _ => []

/-- The ids that an instruction takes from their nodes. -/
def unbound : Instruction → List NodeId
  | createElement id _ _ | createText id _ | createPlaceholder id | bindElementById id _ | freeId id => [id]
  | loadTemplate _ id slots => id :: slots
  | _ => []

end Instruction

namespace Scene

variable {κ : Type} {closed : Prop} {s t u : Scene κ} {ts ts' : List (Node × Forest Node)}
  {r p x y : NodeRef} {id : NodeId} {ids : List NodeId} {rs : List NodeRef}
  {looked lost moved gone : NodeRef → Prop}

/-- Has the node of the id a parent? -/
def Attached (s : Scene κ) (id : NodeId) : Prop :=
  ∃ r, s.bindings.get? id = some r ∧ (s.store.parent? r).isSome

/-- Is the node at or below the node of one of the ids, and in another tree than the node of the first
id? -/
def MovesOff (s : Scene κ) (id : NodeId) (ids : List NodeId) (x : NodeRef) : Prop :=
  ∃ r, s.bindings.get? id = some r ∧ s.store.top? x ≠ s.store.top? r ∧
    ∃ j ∈ ids, ∃ c, s.bindings.get? j = some c ∧ x ∈ s.store.descendants c

/-- Is the node at or below the node of the id? -/
def Below (s : Scene κ) (id : NodeId) (x : NodeRef) : Prop :=
  ∃ r, s.bindings.get? id = some r ∧ x ∈ s.store.descendants r

/-- Is the node a top of a tree that the instruction looks after? -/
def looks (s : Scene κ) (i : Instruction) (y : NodeRef) : Prop :=
  ∃ j ∈ i.handled, s.bindings.get? j = some y

/-- Does the instruction take the node out of its tree, or its id from it? A node that gives way to others
leaves its tree to them. -/
def loses (s : Scene κ) : Instruction → NodeRef → Prop
  | .appendChildren id ids => s.MovesOff id ids
  | .insertBefore id ids | .insertAfter id ids => fun x => s.Attached id ∧ s.MovesOff id ids x
  | .remove id => s.Below id
  | .replaceWith id ids => fun x => s.Attached id ∧ if ids = [] then s.Below id x else s.MovesOff id ids x
  | i => fun x => ∃ j ∈ i.unbound, s.bindings.get? j = some x

/-- Every detached tree that is not kept for a template is looked after or keeps an id. -/
def Spares (s : Scene κ) (i : Instruction) : Prop :=
  ∀ y, s.Loose y → s.looks i y ∨ ∃ x, s.Owns y x ∧ ¬ s.loses i x

/-! ## Moving nodes -/

theorem movesOff_iff (hw : s.store.WellFormed) (hr : s.bindings.get? id = some r)
    (hrs : ids.map s.bindings.get? = rs.map some) :
    s.MovesOff id ids x ↔
      s.store.top? x ≠ s.store.top? r ∧ ∃ c ∈ rs, c ∈ s.store.ancestors x := by
  simp only [MovesOff, hr, Option.some.injEq, exists_eq_left', mem_nodes_iff hrs, hw.mem_descendants_iff]
  refine and_congr_right fun _ => ⟨?_, ?_⟩
  · rintro ⟨j, hj, c, hc, hx⟩
    exact ⟨c, ⟨j, hj, hc⟩, hx⟩
  · rintro ⟨c, ⟨j, hj, hc⟩, hx⟩
    exact ⟨j, hj, c, hc, hx⟩

/-- What the nodes of ids cost when they move to the tree of the node of another, where nodes may be freed
that were attached. -/
theorem costs_of_moves (hs : s.Sound closed ts) (hr : s.bindings.get? id = some r)
    (hrs : ids.map s.bindings.get? = rs.map some)
    (hlost : ∀ x, lost x ↔ s.store.top? x ≠ s.store.top? r ∧ ∃ c ∈ rs, c ∈ s.store.ancestors x)
    (hbound : ∀ c ∈ rs, t.Bound c)
    (hgone : ∀ x, gone x → s.store.parent? x ≠ none ∧ s.store.top? x = s.store.top? r ∧
      (∀ c ∈ rs, c ∉ s.store.ancestors x) ∧ ∃ y, t.Bound y ∧ t.store.top? y = s.store.top? r) :
    Shifts.Costs r (fun x => ∃ c ∈ rs, c ∈ s.store.ancestors x) gone
      (fun y => ∃ j ∈ ids, s.bindings.get? j = some y) lost s t where
  bound y hy _ := hbound y ((mem_nodes_iff hrs).mpr hy)
  tops y hy hor := by
    rcases hor with ⟨c, hc, hm⟩ | hg
    · rw [hy.ancestors hs.store.wellFormed, List.mem_singleton] at hm
      exact (mem_nodes_iff hrs).mp (hm ▸ hc)
    · exact absurd hy.detached (hgone y hg).1
  moving x hm := by
    refine ⟨fun hg => ?_, (hlost x).trans (and_iff_left hm)⟩
    obtain ⟨c, hc, hx⟩ := hm
    exact (hgone x hg).2.2.1 c hc hx
  freeing x hg := ⟨(hgone x hg).2.1, fun _ => (hgone x hg).2.2.2⟩
  resting x hm _ hx := hm ((hlost x).mp hx).2
  target _ _ := ⟨⟨id, hr⟩, fun hx => ((hlost r).mp hx).1 rfl⟩

theorem bound_of_looks {i : Instruction} : s.looks i y → s.Bound y := fun ⟨j, _, hj⟩ => ⟨j, hj⟩

/-- **Nodes that move to the tree of another.** -/
theorem Sound.leaves_of_carries (hs : s.Sound closed ts) (ht : t.Sound closed ts')
    (hc : s.store.Carries p rs t.store) (hp : s.store.top? p = s.store.top? r)
    (hr : s.bindings.get? id = some r) (hrs : ids.map s.bindings.get? = rs.map some)
    (hlost : ∀ x, lost x ↔ s.store.top? x ≠ s.store.top? r ∧ ∃ c ∈ rs, c ∈ s.store.ancestors x)
    (hb : t.bindings = s.bindings) (htm : t.templates = s.templates) :
    s.Leaves (fun y => ∃ j ∈ ids, s.bindings.get? j = some y) lost t := by
  have hshifts : s.Shifts r (fun x => ∃ c ∈ rs, c ∈ s.store.ancestors x) (fun _ => False) t := by
    refine ⟨fun x hx => Or.inl ⟨(hc.live x).mp hx, not_false⟩, fun x hx => (hc.top? x hx).trans hp,
      fun x _ hx _ => hc.ancestors x fun c hm hcx => hx ⟨c, hm, hcx⟩, ?_, htm⟩
    exact hb ▸ .refl _ fun _ _ _ => not_false
  refine hshifts.leaves hs ht (costs_of_moves hs hr hrs hlost (fun c hm => ?_) fun _ hf => hf.elim)
  obtain ⟨j, -, hj⟩ := (mem_nodes_iff hrs).mp hm
  exact ⟨j, hb ▸ hj⟩

/-- What an instruction leaves that moves no ids, seen from where the nodes are. -/
theorem Sound.ends_of_bindings (h : s.Sound closed ts) {i : Instruction} (hi : i.movesIds = false)
    (hsave : ∀ number ds, i ≠ .saveTemplate number ds) {P : Scene κ → Prop}
    (hend : Ends (Scene.execute i) s (fun _ => P) fun _ => True)
    (hleaves : ∀ t ts', P t → t.Sound closed ts' → t.bindings = s.bindings →
      t.templates = s.templates → s.Leaves looked lost t) :
    Ends (Scene.execute i) s (fun _ t => s.Leaves looked lost t) fun _ => True := by
  have hall := ((hend.and (h.execute i)).and (bindings_execute hi s)).and (templates_execute hsave s)
  refine hall.mono (fun _ t ht => ?_) fun _ _ => trivial
  obtain ⟨⟨⟨hp, ts', hts, -⟩, hb⟩, htm⟩ := ht
  exact hleaves t ts' hp hts hb htm

theorem Sound.leaves_appendChildren (h : s.Sound closed ts) (id : NodeId) (ids : List NodeId) :
    Ends (Scene.execute (.appendChildren id ids)) s
      (fun _ t => s.Leaves (s.looks (.appendChildren id ids)) (s.loses (.appendChildren id ids)) t)
      fun _ => True := by
  have hw := h.store.wellFormed
  have hmove : Ends (Scene.execute (.appendChildren id ids)) s
      (fun _ t => ∃ r rs, s.bindings.get? id = some r ∧ ids.map s.bindings.get? = rs.map some ∧
        s.store.Carries r rs t.store) fun _ => True := by
    refine ends_withNode trivial fun r hr => ends_withNodes trivial fun rs hrs => ?_
    refine (Store.WellFormed.ends_forM (g := Scene.store) (fun c t ht => ?_) hw rs).mono
      (fun _ t hc => ⟨r, rs, hr, hrs, hc⟩) fun _ _ => trivial
    exact (ends_onStore t.over_self (ht.ends_insertBefore r c none)).mono
      (fun _ _ ho => ho.document.store) fun _ _ => trivial
  refine h.ends_of_bindings rfl (by simp) hmove fun t ts' hc hts hb htm => ?_
  obtain ⟨r, rs, hr, hrs, hc⟩ := hc
  exact h.leaves_of_carries hts hc rfl hr hrs (fun x => movesOff_iff hw hr hrs) hb htm

theorem attached_iff (hr : s.bindings.get? id = some r) : s.Attached id ↔ s.store.parent? r ≠ none := by
  simp only [Attached, hr, Option.some.injEq, exists_eq_left', Option.isSome_iff_ne_none]

/-- **Nodes that move next to a node, unless that one is detached.** -/
theorem Sound.leaves_insert (h : s.Sound closed ts) {i : Instruction} (hi : i.movesIds = false)
    (hsave : ∀ number ds, i ≠ .saveTemplate number ds) (id : NodeId) (ids : List NodeId)
    {f : NodeRef → List NodeRef → StoreM Unit}
    (hexecute : Scene.execute (κ := κ) i = do
      let r ← node id
      let rs ← nodes ids
      Scene.onDocument (Document.onStore (f r rs)))
    (hf : ∀ r rs, Ends (f r rs) s.store
      (fun _ s' => (s.store.parent? r).elim (s' = s.store) fun p => s.store.Carries p rs s')
      fun _ => True) :
    Ends (Scene.execute i) s
      (fun _ t => s.Leaves (fun y => ∃ j ∈ ids, s.bindings.get? j = some y)
        (fun x => s.Attached id ∧ s.MovesOff id ids x) t) fun _ => True := by
  have hw := h.store.wellFormed
  have hmove : Ends (Scene.execute i) s
      (fun _ t => ∃ r rs, s.bindings.get? id = some r ∧ ids.map s.bindings.get? = rs.map some ∧
        (s.store.parent? r).elim (t.store = s.store) fun p => s.store.Carries p rs t.store)
      fun _ => True := by
    rw [hexecute]
    refine ends_withNode trivial fun r hr => ends_withNodes trivial fun rs hrs => ?_
    exact (ends_onStore s.over_self (hf r rs)).mono (fun _ t ho => ⟨r, rs, hr, hrs, ho.document.store⟩)
      fun _ _ => trivial
  refine h.ends_of_bindings hi hsave hmove fun t ts' hc hts hb htm => ?_
  obtain ⟨r, rs, hr, hrs, hc⟩ := hc
  have hattached := attached_iff hr
  cases hp : s.store.parent? r with
  | none =>
    simp only [hp, Option.elim_none] at hc
    have hstill : s.store.Still t.store := hc ▸ Store.lasting_still.refl s.store
    refine h.leaves_of_still hts hstill hb htm (fun y hy => ?_) fun x hx => hattached.mp hx.1 hp
    obtain ⟨j, -, hj⟩ := hy
    exact ⟨j, hj⟩
  | some p =>
    simp only [hp, Option.elim_some] at hc
    have hon : s.Attached id := hattached.mpr (by simp [hp])
    refine h.leaves_of_carries hts hc (hw.top?_parent? hp) hr hrs (fun x => ?_) hb htm
    rw [← movesOff_iff hw hr hrs, and_iff_right hon]

/-! ## Giving up nodes -/

theorem Drops.shifts (h : s.Drops gone t) (htm : t.templates = s.templates) :
    s.Shifts r (fun _ => False) gone t :=
  ⟨fun x hx => Or.inl ((h.live x).mp hx), fun _ hf => hf.elim, fun x _ _ hg => h.ancestors x hg, h.bindings,
    htm⟩

/-- What it costs to free a tree. -/
theorem costs_of_release (hw : s.store.WellFormed) (hmoved : ∀ x, ¬ moved x)
    (hgone : ∀ x, gone x ↔ r ∈ s.store.ancestors x) (hlost : ∀ x, lost x ↔ r ∈ s.store.ancestors x)
    (hbound : ∀ y, looked y → t.store.Live y → t.Bound y) (htop : s.Loose r → looked r) :
    Shifts.Costs r moved gone looked lost s t where
  bound := hbound
  tops y hy hor := by
    have hm := (hgone y).mp (hor.resolve_left (hmoved y))
    rw [hy.ancestors hw, List.mem_singleton] at hm
    exact hm ▸ htop (hm ▸ hy)
  moving x hm := absurd hm (hmoved x)
  freeing x hg := by
    rw [hgone] at hg
    exact ⟨(hw.top?_of_mem hg).symm, fun hn => absurd ((hlost x).mpr hg) hn⟩
  resting x _ hg hx := hg ((hgone x).mpr ((hlost x).mp hx))
  target x hm := absurd hm (hmoved x)

theorem Sound.leaves_remove (h : s.Sound closed ts) (id : NodeId) :
    Ends (Scene.execute (.remove id)) s
      (fun _ t => s.Leaves (s.looks (.remove id)) (s.loses (.remove id)) t) fun _ => True := by
  have hw := h.store.wellFormed
  refine ends_withNode trivial fun r hr => ?_
  have hfree := ((h.ends_releaseSubtree r).and (h.releaseSubtree (h.notMem_of_get? hr))).and
    (keeps_releaseSubtree lasting_templates (fun _ _ => rfl) (fun _ _ _ => rfl) r s)
  refine hfree.mono (fun _ t ht => ?_) fun _ _ => trivial
  obtain ⟨⟨⟨hl, -, -, hd⟩, hts⟩, htm⟩ := ht
  have hlost : ∀ x, s.loses (.remove id) x ↔ r ∈ s.store.ancestors x := fun x => by
    simp [loses, Below, hr, hw.mem_descendants_iff]
  refine (hd.shifts htm).leaves h hts (costs_of_release hw (fun _ => not_false) (fun _ => Iff.rfl) hlost
    (fun y hy hyl => ?_) fun _ => ⟨id, List.mem_singleton_self id, hr⟩)
  obtain ⟨j, hj, hjy⟩ := hy
  obtain rfl := List.mem_singleton.mp hj
  obtain rfl := Option.some.inj (hr.symm.trans hjy)
  exact absurd (Store.mem_ancestors_self hl) ((hd.live r).mp hyl).2

/-- **A node gives way to others, and takes along what stays below it.** -/
theorem Shifts.of_replaces (h : s.store.Replaces r p rs u.store) (hb : u.bindings = s.bindings)
    (hd : u.Drops (r ∈ u.store.ancestors ·) t) (htm : t.templates = s.templates)
    (hw : s.store.WellFormed) :
    s.Shifts r (fun x => ∃ c ∈ rs, c ∈ s.store.ancestors x)
      (fun x => r ∈ s.store.ancestors x ∧ ∀ c ∈ rs, c ∉ s.store.ancestors x) t where
  new x hx := by
    obtain ⟨hl, hg⟩ := (hd.live x).mp hx
    exact Or.inl ⟨(h.live x).mp hl, fun hn => hg (h.mem_ancestors_iff.mpr hn)⟩
  top? x hx := by
    obtain ⟨c, hc, hm⟩ := hx
    have hg : r ∉ u.store.ancestors x := fun hn => (h.mem_ancestors_iff.mp hn).2 c hc hm
    rw [Store.top?, hd.ancestors x hg, ← Store.top?, h.top? ⟨c, hc, hm⟩, hw.top?_parent? h.child]
  ancestors x _ hx hg := by
    have hn : ∀ c ∈ rs, c ∉ s.store.ancestors x := fun c hc hm => hx ⟨c, hc, hm⟩
    have hr : r ∉ s.store.ancestors x := fun hm => hg ⟨hm, hn⟩
    rw [hd.ancestors x fun hm => hg (h.mem_ancestors_iff.mp hm), h.ancestors hr hn]
  bindings id x := by
    have hgone : r ∈ u.store.ancestors x ↔ r ∈ s.store.ancestors x ∧ ∀ c ∈ rs, c ∉ s.store.ancestors x :=
      h.mem_ancestors_iff
    rw [hd.bindings, hb]
    exact and_congr_right fun _ => not_congr hgone
  templates := htm

theorem loses_replaceWith (hw : s.store.WellFormed) (hr : s.bindings.get? id = some r)
    (hrs : ids.map s.bindings.get? = rs.map some) (hon : s.Attached id) (hids : ids ≠ []) :
    s.loses (.replaceWith id ids) x ↔
      s.store.top? x ≠ s.store.top? r ∧ ∃ c ∈ rs, c ∈ s.store.ancestors x := by
  rw [← movesOff_iff hw hr hrs]
  simp only [loses, if_neg hids, and_iff_right hon]

/-- What is left when nodes take the place of a node. -/
theorem Sound.ends_replace (h : s.Sound closed ts) (hr : r ∉ Store.refsOf ts)
    (hrs : ∀ c ∈ rs, c ∉ Store.refsOf ts) :
    Ends (Scene.replace r rs) s
      (fun _ t => t.Sound closed ts ∧ t.templates = s.templates ∧ match s.store.parent? r with
        | none => t.store = s.store ∧ t.bindings = s.bindings
        | some p =>
          if r ∈ rs then s.store.Carries p rs t.store ∧ t.bindings = s.bindings
          else s.Shifts r (fun x => ∃ c ∈ rs, c ∈ s.store.ancestors x)
            (fun x => r ∈ s.store.ancestors x ∧ ∀ c ∈ rs, c ∉ s.store.ancestors x) t)
      fun _ => True := by
  have hw := h.store.wellFormed
  have hmove := (ends_onStore s.over_self (hw.ends_replaceWith r rs)).and
    (h.onStore fun _ _ hg => hg.replaceWith hr hrs)
  unfold Scene.replace
  refine Ends.get_bind ((hmove.mono (fun _ _ hu => hu) fun _ _ => trivial).bind ?_)
  rintro _ u ⟨ho, hu⟩
  have hplace := ho.document.store
  cases hp : s.store.parent? r with
  | none =>
    simp only [hp, Option.elim_none] at hplace
    exact Ends.ite (fun hgive => absurd hgive (by simp)) fun _ =>
      Ends.pure ⟨hu, ho.templates, hplace, ho.bindings⟩
  | some p =>
    simp only [hp, Option.elim_some] at hplace
    refine Ends.ite (fun hgive => ?_) fun hgive => Ends.pure ⟨hu, ho.templates, ?_⟩
    · have hm : r ∉ rs := by simpa using hgive
      rw [if_neg hm] at hplace
      have hfree := ((hu.ends_releaseSubtree r).and (hu.releaseSubtree hr)).and
        (keeps_releaseSubtree lasting_templates (fun _ _ => rfl) (fun _ _ _ => rfl) r u)
      refine hfree.mono (fun _ t ht => ?_) fun _ _ => trivial
      obtain ⟨⟨⟨-, -, -, hd⟩, hts⟩, htm⟩ := ht
      have htemplates := htm.trans ho.templates
      simp only [if_neg hm]
      exact ⟨hts, htemplates, .of_replaces hplace ho.bindings hd htemplates hw⟩
    · have hm : r ∈ rs := by simpa using hgive
      simp only [if_pos hm] at hplace ⊢
      exact ⟨hplace, ho.bindings⟩

/-- The node that gives way takes along what stays below it, unless others come and keep it reached. -/
theorem Sound.costs_of_replace (h : s.Sound closed ts) (hr : s.bindings.get? id = some r)
    (hrs : ids.map s.bindings.get? = rs.map some) (hp : s.store.parent? r ≠ none)
    (hshift : s.Shifts r (fun x => ∃ c ∈ rs, c ∈ s.store.ancestors x)
      (fun x => r ∈ s.store.ancestors x ∧ ∀ c ∈ rs, c ∉ s.store.ancestors x) t) :
    Shifts.Costs r (fun x => ∃ c ∈ rs, c ∈ s.store.ancestors x)
      (fun x => r ∈ s.store.ancestors x ∧ ∀ c ∈ rs, c ∉ s.store.ancestors x)
      (s.looks (.replaceWith id ids)) (s.loses (.replaceWith id ids)) s t := by
  have hw := h.store.wellFormed
  have hon : s.Attached id := (attached_iff hr).mpr hp
  by_cases hids : ids = []
  · subst hids
    obtain rfl : rs = [] := List.map_eq_nil_iff.mp hrs.symm
    refine costs_of_release hw (by simp) (by simp) (fun x => ?_) (fun y hy _ => ?_)
      fun hl => absurd hl.detached hp
    · simp only [loses, if_pos, and_iff_right hon, Below, hr, Option.some.injEq, exists_eq_left',
        hw.mem_descendants_iff]
    · obtain ⟨j, hj, -⟩ := hy
      exact absurd hj List.not_mem_nil
  · have hself : ∀ c ∈ rs, s.Bound c ∧ c ∈ s.store.ancestors c := fun c hc => by
      obtain ⟨j, -, hj⟩ := (mem_nodes_iff hrs).mp hc
      exact ⟨⟨j, hj⟩, Store.mem_ancestors_self (h.live_of_bound ⟨j, hj⟩)⟩
    have hbound : ∀ c ∈ rs, t.Bound c := fun c hc =>
      hshift.bound_iff.mpr ⟨(hself c hc).1, fun hg => hg.2 c hc (hself c hc).2⟩
    have hne : rs ≠ [] := by
      rintro rfl
      exact hids (List.map_eq_nil_iff.mp hrs)
    -- one of the nodes that have come keeps what is left reached
    obtain ⟨c, hc⟩ := List.exists_mem_of_ne_nil rs hne
    refine costs_of_moves h hr hrs (fun x => loses_replaceWith hw hr hrs hon hids) hbound fun x hg => ?_
    refine ⟨fun hn => ?_, (hw.top?_of_mem hg.1).symm, hg.2, c, hbound c hc,
      hshift.top? c ⟨c, hc, (hself c hc).2⟩⟩
    have hm := hg.1
    rw [hw.ancestors_of_parent?_none (Store.live_of_ancestors hm) hn, List.mem_singleton] at hm
    exact hp (hm ▸ hn)

theorem Sound.leaves_replaceWith (h : s.Sound closed ts) (id : NodeId) (ids : List NodeId) :
    Ends (Scene.execute (.replaceWith id ids)) s
      (fun _ t => s.Leaves (s.looks (.replaceWith id ids)) (s.loses (.replaceWith id ids)) t)
      fun _ => True := by
  have hw := h.store.wellFormed
  refine ends_withNode trivial fun r hr => ends_withNodes trivial fun rs hrs => ?_
  have hout : ∀ c ∈ rs, c ∉ Store.refsOf ts := fun c hc => by
    obtain ⟨j, -, hj⟩ := (mem_nodes_iff hrs).mp hc
    exact h.notMem_of_get? hj
  refine (h.ends_replace (h.notMem_of_get? hr) hout).mono (fun _ t ht => ?_) fun _ _ => trivial
  obtain ⟨hts, htm, hmove⟩ := ht
  cases hp : s.store.parent? r with
  | none =>
    simp only [hp] at hmove
    have hstill : s.store.Still t.store := hmove.1 ▸ Store.lasting_still.refl s.store
    exact h.leaves_of_still hts hstill hmove.2 htm (fun _ => bound_of_looks) fun x hx =>
      (attached_iff hr).mp hx.1 hp
  | some p =>
    have hon : s.Attached id := (attached_iff hr).mpr (by simp [hp])
    by_cases hm : r ∈ rs
    · simp only [hp, if_pos hm] at hmove
      obtain ⟨j, hj, -⟩ := (mem_nodes_iff hrs).mp hm
      exact h.leaves_of_carries hts hmove.1 (hw.top?_parent? hp) hr hrs
        (fun x => loses_replaceWith hw hr hrs hon (List.ne_nil_of_mem hj)) hmove.2 htm
    · simp only [hp, if_neg hm] at hmove
      exact hmove.leaves h hts (h.costs_of_replace hr hrs (by simp [hp]) hmove)

/-! ## Assigned content -/

theorem Drops.children_eq_nil (h : s.Drops (fun x => r ∈ s.store.ancestors x ∧ x ≠ r) t)
    (hw : t.store.WellFormed) : t.store.children r = [] := by
  refine List.eq_nil_iff_forall_not_mem.mpr fun c hc => ?_
  have hl := (Store.live_of_child hc).2
  have hbelow := hw.exists_child_iff.mp ⟨c, hc, Store.mem_ancestors_self hl⟩
  have hstay := ((h.live c).mp hl).2
  rw [h.ancestors c hstay] at hbelow
  exact hstay hbelow

/-- New nodes are made, the nodes below a node are freed, and the node is filled. -/
theorem Shifts.of_fills {a b : Scene κ} (hl : s.store.Live r) (hadds : s.store.Adds rs a.store)
    (hids : a.bindings = s.bindings) (hd : a.Drops (fun x => r ∈ a.store.ancestors x ∧ x ≠ r) b)
    (hfill : b.store.Fills r rs t.store) (hb : t.bindings = b.bindings) (htm : t.templates = s.templates) :
    s.Shifts r (fun _ => False) (fun x => r ∈ s.store.ancestors x ∧ x ≠ r) t := by
  -- new nodes are not below the one that gets them, so the same nodes as before give way
  simp only [hadds.mem_ancestors_iff hl] at hd
  have hup : ∀ x, s.store.Live x → ¬ (r ∈ s.store.ancestors x ∧ x ≠ r) →
      b.store.ancestors x = s.store.ancestors x := fun x hx hn => by
    rw [hd.ancestors x hn, hadds.ancestors x hx]
  have htop : b.store.top? r = s.store.top? r := congrArg List.getLast? (hup r hl fun hn => hn.2 rfl)
  refine ⟨fun x hx => ?_, fun _ hf => hf.elim, fun x hx _ hn => ?_, ?_, htm⟩
  · refine (hfill.new x hx).elim (fun hx => ?_) fun hx => Or.inr (hx.trans htop)
    obtain ⟨hx, hn⟩ := (hd.live x).mp hx
    refine (hadds.below x hx).imp (⟨·, hn⟩) fun ⟨c, hc, hm⟩ => ?_
    rw [← hd.ancestors x hn] at hm
    exact (hfill.top? x ⟨c, hc, hm⟩).trans htop
  · have hlive : b.store.Live x := (hd.live x).mpr ⟨hadds.live x hx, hn⟩
    refine (hfill.ancestors x hlive fun c hc hm => ?_).trans (hup x hx hn)
    rw [hup x hx hn] at hm
    exact (hadds.fresh c hc).1 (Store.live_of_mem_ancestors hm)
  · rw [hb, ← hids]
    exact hd.bindings

/-- **Content takes the place of all nodes below.** -/
theorem Sound.shifts_assign (h : s.Sound closed ts) (hr : r ∉ Store.refsOf ts) (hl : s.store.Live r)
    {property : Property} (hp : property.isContent = true) (value : String) :
    Ends (Scene.assign r property value) s
      (fun _ t => s.Shifts r (fun _ => False) (fun x => r ∈ s.store.ancestors x ∧ x ≠ r) t)
      fun _ => True := by
  have hw := h.store.wellFormed
  have hkeep := keeps_assign lasting_templates (fun _ _ _ => rfl) r property value (fun _ _ _ => rfl) s
  suffices hmain : Ends (Scene.assign r property value) s
      (fun _ t => t.templates = s.templates →
        s.Shifts r (fun _ => False) (fun x => r ∈ s.store.ancestors x ∧ x ≠ r) t) fun _ => True from
    (hmain.and hkeep).mono (fun _ _ ht => ht.1 ht.2) fun _ _ => trivial
  unfold Scene.assign
  cases property with
  | innerHtml =>
    have hadd := (ends_onDocument s.over_self (Document.ends_addFragment_adds hw r value)).and
      (ends_onDocument h.overSelf (Document.ends_addFragment ⟨rfl, h.store⟩ r value))
    refine (hadd.mono (fun _ _ ht => ht) fun _ _ => trivial).bind ?_
    rintro rs a ⟨ho, hg⟩
    have ha : a.Sound closed ts :=
      h.of_over ⟨hg.document.mono fun _ hp => hp.1, hg.bindings, hg.templates, hg.callbacks⟩
    refine ((ha.ends_releaseChildren hr).mono (fun _ _ hu => hu) fun _ he => he.elim).bind ?_
    rintro _ b ⟨hb, hd⟩
    have hwb := hb.store.wellFormed
    have hfill := Document.ends_replaceChildren_carries hwb (hd.children_eq_nil hwb) rs
    refine (ends_onDocument_with hfill).mono ?_ fun _ _ => trivial
    rintro _ _ ⟨d, rfl, hc⟩ htm
    exact .of_fills hl ho.document.store ho.bindings hd hc.fills rfl htm
  | textContent =>
    refine ((h.ends_releaseChildren hr).mono (fun _ _ hu => hu) fun _ he => he.elim).bind ?_
    rintro _ b ⟨hb, hd⟩
    have hwb := hb.store.wellFormed
    have hfill := hwb.ends_setTextContent (hd.children_eq_nil hwb) value
    refine (ends_onStore b.over_self hfill).mono (fun _ t ho htm => ?_) fun _ _ => trivial
    exact .of_fills hl (.refl hw) rfl hd ho.document.store ho.bindings htm
  | _ => exact absurd hp Bool.false_ne_true

theorem Sound.leaves_setContent (h : s.Sound closed ts) (id : NodeId) {property : Property}
    (hp : property.isContent = true) (value : String) :
    Ends (Scene.execute (.setProperty id property value)) s
      (fun _ t => s.Leaves (s.looks (.setProperty id property value))
        (s.loses (.setProperty id property value)) t)
      fun _ => True := by
  have hw := h.store.wellFormed
  refine ends_withNode trivial fun r hr => ?_
  have hrl := h.live_of_bound ⟨id, hr⟩
  have hshift := (h.shifts_assign (h.notMem_of_get? hr) hrl hp value).and
    (h.assign (h.notMem_of_get? hr) property value)
  refine hshift.mono (fun _ t ht => ?_) fun _ _ => trivial
  obtain ⟨hshift, hts⟩ := ht
  have hself : ¬ (r ∈ s.store.ancestors r ∧ r ≠ r) := fun hn => hn.2 rfl
  refine hshift.leaves h hts ⟨fun y hy => ?_, fun y hy hor => ?_, fun _ hf => hf.elim, fun x hg => ?_,
    fun x _ _ hx => ?_, fun _ hf => hf.elim⟩
  · obtain ⟨j, hj, -⟩ := hy
    exact absurd hj List.not_mem_nil
  · obtain ⟨hm, hne⟩ := hor.resolve_left not_false
    rw [hy.ancestors hw, List.mem_singleton] at hm
    exact absurd hm.symm hne
  · refine ⟨(hw.top?_of_mem hg.1).symm, fun _ => ⟨r, hshift.bound_iff.mpr ⟨⟨id, hr⟩, hself⟩, ?_⟩⟩
    exact congrArg List.getLast? (hshift.ancestors r hrl not_false hself)
  · obtain ⟨j, hj, -⟩ := hx
    exact absurd hj List.not_mem_nil

end Scene

end DomHost
