import DomHost.Proofs.Store.Operations
import DomHost.Proofs.Store.Still

/-!
# Adding and moving trees

New trees leave every other node where it is. Nodes that are put under a parent one after the other take
along what is below them, also when some of them are below others. All that is moved ends in the tree of the
parent, and everything else stays where it is.

* `Store.Adds`: new detached trees;
* `Store.WellFormed.adds_plant`, **`Store.WellFormed.ends_plantEach`**: operations that add trees;
* `Store.Carries`: what moving nodes under a parent does to the ways up;
* **`Store.WellFormed.ends_insertAt`**, `Store.WellFormed.ends_insertAllBefore`,
  `Store.WellFormed.ends_insertAfter`: operations that move nodes;
* `Store.WellFormed.ends_setTextContent`: a new text in a node;
* **`Store.Replaces.mem_ancestors_iff`**: what is left below a node that others take the place of.
-/

namespace DomHost.Store

variable {s s' u : Store} {p x c old : NodeRef} {moved cs rs rs' : List NodeRef}

/-! ## New trees -/

/-- New detached trees with given tops are there, and everything else stays where it is. -/
structure Adds (rs : List NodeRef) (s s' : Store) : Prop where
  before : s.WellFormed
  after : s'.WellFormed
  live : ∀ x, s.Live x → s'.Live x
  ancestors : ∀ x, s.Live x → s'.ancestors x = s.ancestors x
  fresh : ∀ r ∈ rs, ¬ s.Live r ∧ s'.Live r ∧ s'.parent? r = none
  below : ∀ x, s'.Live x → s.Live x ∨ ∃ r ∈ rs, r ∈ s'.ancestors x

namespace Adds

theorem refl (h : s.WellFormed) : s.Adds [] s :=
  ⟨h, h, fun _ hx => hx, fun _ _ => rfl, by simp, fun _ hx => Or.inl hx⟩

theorem append (h : s.Adds rs s') (h' : s'.Adds rs' u) : s.Adds (rs ++ rs') u := by
  refine ⟨h.before, h'.after, fun x hx => h'.live x (h.live x hx), fun x hx => ?_, fun r hr => ?_,
    fun x hx => ?_⟩
  · rw [h'.ancestors x (h.live x hx), h.ancestors x hx]
  · rcases List.mem_append.mp hr with hr | hr
    · obtain ⟨hn, hl, hp⟩ := h.fresh r hr
      exact ⟨hn, h'.live r hl, by rw [parent?, h'.ancestors r hl, ← parent?, hp]⟩
    · obtain ⟨hn, hl⟩ := h'.fresh r hr
      exact ⟨fun hs => hn (h.live r hs), hl⟩
  · rcases h'.below x hx with hx | ⟨r, hr, hx⟩
    · refine (h.below x hx).imp id ?_
      rintro ⟨r, hr, hm⟩
      exact ⟨r, List.mem_append_left _ hr, h'.ancestors x hx ▸ hm⟩
    · exact Or.inr ⟨r, List.mem_append_right _ hr, hx⟩

/-- The parent of a node that was there is the same. -/
theorem parent? (h : s.Adds rs s') (hx : s.Live x) : s'.parent? x = s.parent? x := by
  rw [Store.parent?, h.ancestors x hx, Store.parent?]

/-- What is below a node that was there is the same. -/
theorem mem_ancestors_iff (h : s.Adds rs s') (hp : s.Live p) :
    p ∈ s'.ancestors x ↔ p ∈ s.ancestors x := by
  by_cases hx : s.Live x
  · rw [h.ancestors x hx]
  refine iff_of_false (fun hm => ?_) fun hm => hx (live_of_ancestors hm)
  -- a new node is below the top of a new tree, and below no node that was there
  obtain ⟨r, hr, hrx⟩ := (h.below x (live_of_ancestors hm)).resolve_left hx
  obtain ⟨hn, hl, hparent⟩ := h.fresh r hr
  have htop := h.after.top?_of_mem hm
  rw [(h.after.mem_ancestors_iff_top? hl hparent).mp hrx, Store.top?, h.ancestors p hp] at htop
  exact hn (live_of_mem_ancestors (List.mem_of_getLast? htop))

end Adds

namespace WellFormed

variable {data : NodeData} {k : Forest NodeData}

/-- **A tree that is planted is the only new one.** -/
theorem adds_plant (h : s.WellFormed) (hp : Plantable data k) :
    s.Adds [(s.plant data k).1] (s.plant data k).2 := by
  have hnew : ∀ x, (s.plant data k).1 ∈ (s.plant data k).2.ancestors x ↔
      (s.plant data k).2.Live x ∧ ¬ s.Live x := fun x => by
    rw [← (h.plant hp).mem_descendants_iff, h.mem_descendants_plant hp]
  refine ⟨h, h.plant hp, fun _ => live_plant, fun _ => h.ancestors_plant hp, fun r hr => ?_, fun x hx => ?_⟩
  · rw [List.mem_singleton.mp hr]
    exact ⟨h.plant_notLive data k, (h.guards.plant hp).live _ List.mem_cons_self, h.parent?_plant hp⟩
  · by_cases hs : s.Live x
    · exact Or.inl hs
    · exact Or.inr ⟨_, List.mem_singleton_self _, (hnew x).mpr ⟨hx, hs⟩⟩

theorem adds_create (h : s.WellFormed) (hd : data.isDocument = false) :
    s.Adds [(s.create data).1] (s.create data).2 := h.adds_plant (plantable_leaf hd)

theorem ends_createElementNs (h : s.WellFormed) (ns : Option String) (name : String) :
    Ends (createElementNs ns name) s (fun r s' => s.Adds [r] s') (· = s) := by
  unfold createElementNs
  refine (Ends.liftResult (Q := fun _ s' => s' = s) (E := fun s' => s' = s) (fun _ _ => rfl) rfl).bind ?_
  rintro _ s rfl
  exact Ends.modifyGet (h.adds_create rfl)

theorem ends_cloneSubtree (h : s.WellFormed) (r : NodeRef) :
    Ends (cloneSubtree r) s (fun c s' => s.Adds [c] s') (· = s) := by
  unfold cloneSubtree
  refine Ends.get_bind ?_
  split
  · exact Ends.throw rfl
  · rename_i n c ht
    refine Ends.ite (fun _ => Ends.throw_bind rfl) fun hd => Ends.modifyGet ?_
    rw [copy_eq_plant]
    exact h.adds_plant (h.plantable_copy ht (by simpa using hd))

/-- **Trees that are planted one by one are the only new ones.** -/
theorem ends_plantEach (h : s.WellFormed) {f : Forest NodeData} (hf : Plantables f) :
    Ends (plantEach (fun _ => pure ()) f) s (fun rs s' => s.Adds rs s') fun _ => False := by
  induction f generalizing s with
  | nil => exact Ends.pure (.refl h)
  | node d c n _ ihn =>
    have hone := h.adds_plant hf.1
    unfold plantEach
    refine (Ends.modifyGet (f := fun s : Store => s.plant d c) (Q := fun r s' => s.Adds [r] s')
      hone).bind fun r s' hr => ?_
    refine (Ends.pure (Q := fun _ u => u = s') rfl).bind ?_
    rintro _ _ rfl
    refine (ihn hr.after hf.2).bind fun rs u hu => ?_
    exact Ends.pure (hr.append hu)

end WellFormed

/-! ## Moving nodes -/

/-- Nodes have moved under a parent, with all below them. -/
structure Carries (p : NodeRef) (moved : List NodeRef) (s s' : Store) : Prop where
  before : s.WellFormed
  after : s'.WellFormed
  live : ∀ x, s'.Live x ↔ s.Live x
  notAbove : ∀ c ∈ moved, c ∉ s.ancestors p
  /-- What is not below any of them stays where it is. -/
  ancestors : ∀ x, (∀ c ∈ moved, c ∉ s.ancestors x) → s'.ancestors x = s.ancestors x
  /-- What is below one of them is in the tree of the parent. -/
  top? : ∀ x, (∃ c ∈ moved, c ∈ s.ancestors x) → s'.top? x = s.top? p

namespace Carries

theorem refl (h : s.WellFormed) (p : NodeRef) : s.Carries p [] s :=
  ⟨h, h, fun _ => Iff.rfl, by simp, fun _ _ => rfl, by simp⟩

/-- **One node is moved, then the others.** -/
theorem cons (h : s.Reparents s' c (some p)) (h' : s'.Carries p cs u) : s.Carries p (c :: cs) u := by
  have hp : s'.ancestors p = s.ancestors p := h.ancestors (h.notAbove p rfl)
  have htop : s'.top? p = s.top? p := congrArg List.getLast? hp
  refine ⟨h.before, h'.after, fun x => (h'.live x).trans (h.live x), ?_, fun x hx => ?_, fun x hx => ?_⟩
  · exact List.forall_mem_cons.mpr ⟨h.notAbove p rfl, fun d hd => hp ▸ h'.notAbove d hd⟩
  · obtain ⟨hc, hcs⟩ := List.forall_mem_cons.mp hx
    rw [← h.ancestors hc] at hcs ⊢
    exact h'.ancestors x hcs
  · by_cases hm : ∃ d ∈ cs, d ∈ s'.ancestors x
    · exact (h'.top? x hm).trans htop
    · have hstay : u.ancestors x = s'.ancestors x :=
        h'.ancestors x fun d hd hda => hm ⟨d, hd, hda⟩
      rw [Store.top?, hstay]
      by_cases hc : c ∈ s.ancestors x
      · exact h.top? hc
      · rw [h.ancestors hc] at hm
        exact absurd ((List.exists_mem_cons_iff _ _ _).mp hx) fun hor => hor.elim hc hm

end Carries

namespace WellFormed

theorem ends_insertBefore (h : s.WellFormed) (p c : NodeRef) (reference : Option NodeRef) :
    Ends (insertBefore p c reference) s (fun _ s' => s.Reparents s' c (some p)) (· = s) := by
  refine (Store.ends_insertBefore s p c reference).mono ?_ fun _ he => he
  rintro _ _ ⟨hi, before, rfl⟩
  exact h.place hi before

/-- **Nodes are put under a parent one after the other**, whatever the store is a part of. -/
theorem ends_forM {σ ε : Type} {g : σ → Store} {f : NodeRef → EStateM ε σ Unit} {t : σ}
    (hf : ∀ c t, (g t).WellFormed →
      Ends (f c) t (fun _ t' => (g t).Reparents (g t') c (some p)) fun _ => True)
    (h : (g t).WellFormed) (nodes : List NodeRef) :
    Ends (nodes.forM f) t (fun _ t' => (g t).Carries p nodes (g t')) fun _ => True := by
  induction nodes generalizing t with
  | nil => exact Ends.pure (.refl h p)
  | cons c cs ih =>
    change Ends (f c >>= fun _ => cs.forM f) t _ _
    refine (hf c t h).bind fun _ _ hr => ?_
    exact (ih hr.after).mono (fun _ _ hc => .cons hr hc) fun _ he => he

theorem ends_insertAt (h : s.WellFormed) (p : NodeRef) (nodes candidates : List NodeRef) :
    Ends (insertAt p nodes candidates) s (fun _ s' => s.Carries p nodes s') fun _ => True :=
  ends_forM (g := id) (fun c _ hs => (hs.ends_insertBefore p c _).mono (fun _ _ hr => hr)
    fun _ _ => trivial) h nodes

/-- Nothing happens before a node that is detached, nor behind it. -/
theorem ends_insertAllBefore (h : s.WellFormed) (r : NodeRef) (nodes : List NodeRef) :
    Ends (insertAllBefore r nodes) s
      (fun _ s' => (s.parent? r).elim (s' = s) fun p => s.Carries p nodes s') fun _ => True := by
  unfold insertAllBefore
  refine Ends.get_bind ?_
  split
  · rename_i hp
    rw [hp]
    exact (ends_discard_require s r).mono (fun _ _ he => he.1) fun _ _ => trivial
  · rename_i p hp
    rw [hp]
    exact Ends.get_bind (h.ends_insertAt p nodes _)

theorem ends_insertAfter (h : s.WellFormed) (r : NodeRef) (nodes : List NodeRef) :
    Ends (insertAfter r nodes) s
      (fun _ s' => (s.parent? r).elim (s' = s) fun p => s.Carries p nodes s') fun _ => True := by
  unfold insertAfter
  refine Ends.get_bind ?_
  split
  · rename_i hp
    rw [hp]
    exact (ends_discard_require s r).mono (fun _ _ he => he.1) fun _ _ => trivial
  · rename_i p hp
    rw [hp]
    exact Ends.get_bind (h.ends_insertAt p nodes _)

end WellFormed

/-! ## Filling a node -/

/-- New nodes and some that were there are in the tree of a node, and everything else stays where it is. -/
structure Fills (r : NodeRef) (rs : List NodeRef) (s s' : Store) : Prop where
  new : ∀ x, s'.Live x → s.Live x ∨ s'.top? x = s.top? r
  ancestors : ∀ x, s.Live x → (∀ c ∈ rs, c ∉ s.ancestors x) → s'.ancestors x = s.ancestors x
  top? : ∀ x, (∃ c ∈ rs, c ∈ s.ancestors x) → s'.top? x = s.top? r

theorem Fills.of_still {r : NodeRef} (h : s.Still s') : s.Fills r [] s' :=
  ⟨fun _ hx => Or.inl (h.live.mp hx), fun x _ _ => h x, by simp⟩

theorem Carries.fills {r : NodeRef} (h : s.Carries r rs s') : s.Fills r rs s' :=
  ⟨fun x hx => Or.inl ((h.live x).mp hx), fun x _ => h.ancestors x, h.top?⟩

/-- **A node without children is given a text.** -/
theorem WellFormed.ends_setTextContent {r : NodeRef} (h : s.WellFormed) (hr : s.children r = [])
    (text : String) :
    Ends (setTextContent r text) s (fun _ s' => s.Fills r [] s') fun _ => True := by
  unfold setTextContent
  refine ((ends_require s r).mono (fun _ _ he => he) fun _ _ => trivial).bind ?_
  rintro d s ⟨rfl, hd⟩
  cases d with
  | text t => exact Ends.modify (.of_still (still_setData s r _))
  | comment t => exact Ends.modify (.of_still (still_setData s r _))
  | document => exact Ends.pure (.of_still (lasting_still.refl s))
  | element e =>
    refine (Ends.modify (f := fun s : Store => s.scatter r) (Q := fun _ s' => s' = s)
      (h.scatter_eq_self hr)).bind ?_
    rintro _ s rfl
    refine Ends.ite (fun _ => Ends.pure (.of_still (lasting_still.refl s))) fun _ => ?_
    have hnew := h.adds_create (rfl : (NodeData.text text).isDocument = false)
    have hplace := hnew.after.place (h.insertable_create hd rfl rfl) none
    have hfresh := (hnew.fresh _ (List.mem_singleton_self _)).1
    have hrl : s.Live r := get?_isSome_iff.mp (by rw [hd]; rfl)
    refine Ends.modify ⟨fun x hx => ?_, fun x hx _ => ?_, by simp⟩
    · refine (hnew.below x ((hplace.live x).mp hx)).imp id ?_
      rintro ⟨c, hc, hm⟩
      rw [List.mem_singleton.mp hc] at hm
      exact (hplace.top? hm).trans (congrArg List.getLast? (hnew.ancestors r hrl))
    · have hup := hnew.ancestors x hx
      refine (hplace.ancestors fun hm => hfresh ?_).trans hup
      rw [hup] at hm
      exact live_of_mem_ancestors hm

/-! ## Taking the place of a node -/

/-- Nodes have taken the place of a node that is not one of them. -/
structure Replaces (old p : NodeRef) (nodes : List NodeRef) (s s' : Store) : Prop where
  child : s.parent? old = some p
  notMem : old ∉ nodes
  /-- The node is taken out before the others come. -/
  between : ∃ u, s.Reparents u old none ∧ u.Carries p nodes s'

namespace Replaces

variable {nodes : List NodeRef} (h : s.Replaces old p nodes s')

include h

/-- Taking out a node leaves alone which of the others a way up leads through. -/
theorem exists_between : ∃ u, s.Reparents u old none ∧ u.Carries p nodes s' ∧
    u.ancestors p = s.ancestors p ∧ ∀ c ∈ nodes, ∀ x, c ∈ u.ancestors x ↔ c ∈ s.ancestors x := by
  obtain ⟨u, hout, hin⟩ := h.between
  have hold := hout.before.ancestors_of_parent? h.child
  have hlive := (hout.before.parent?_isSome h.child).1
  have hp : u.ancestors p = s.ancestors p := by
    exact hout.ancestors (hout.before.notMem_ancestors_of_parent? h.child)
  refine ⟨u, hout, hin, hp, fun c hc x => ?_⟩
  by_cases hx : old ∈ s.ancestors x
  · obtain ⟨front, hs, hu⟩ := hout.exists_front hx
    have hne : c ≠ old := fun he => h.notMem (he ▸ hc)
    have hup : c ∉ s.ancestors p := hp ▸ hin.notAbove c hc
    have hparent : u.parent? old = none := by rw [hout.parent?, if_pos rfl]
    rw [hs, hu, hold, hout.after.ancestors_of_parent?_none ((hout.live old).mpr hlive) hparent]
    simp [hne, hup]
  · rw [hout.ancestors hx]

theorem live (x : NodeRef) : s'.Live x ↔ s.Live x := by
  obtain ⟨u, hout, hin⟩ := h.between
  exact (hin.live x).trans (hout.live x)

theorem ancestors (hx : old ∉ s.ancestors x) (hn : ∀ c ∈ nodes, c ∉ s.ancestors x) :
    s'.ancestors x = s.ancestors x := by
  obtain ⟨u, hout, hin, -, hiff⟩ := h.exists_between
  rw [hin.ancestors x fun c hc => (hiff c hc x).not.mpr (hn c hc), hout.ancestors hx]

theorem top? (hx : ∃ c ∈ nodes, c ∈ s.ancestors x) : s'.top? x = s.top? p := by
  obtain ⟨u, hout, hin, hp, hiff⟩ := h.exists_between
  obtain ⟨c, hc, hx⟩ := hx
  rw [hin.top? x ⟨c, hc, (hiff c hc x).mpr hx⟩, Store.top?, hp, Store.top?]

/-- **Below a node that is replaced stays what is below none of those that take its place.** -/
theorem mem_ancestors_iff :
    old ∈ s'.ancestors x ↔ old ∈ s.ancestors x ∧ ∀ c ∈ nodes, c ∉ s.ancestors x := by
  obtain ⟨u, hout, hin, hp, hiff⟩ := h.exists_between
  have hlive := (hout.before.parent?_isSome h.child).1
  have hparent : u.parent? old = none := by rw [hout.parent?, if_pos rfl]
  have hup := hout.after.ancestors_of_parent?_none ((hout.live old).mpr hlive) hparent
  have hstay : s'.ancestors old = u.ancestors old := by
    refine hin.ancestors old fun c hc hm => ?_
    rw [hup, List.mem_singleton] at hm
    exact h.notMem (hm ▸ hc)
  have hparent' : s'.parent? old = none := by rw [parent?, hstay, ← parent?, hparent]
  by_cases hx : ∃ c ∈ nodes, c ∈ s.ancestors x
  · -- what is moved ends in the tree of the parent, which is another one
    refine iff_of_false (fun hm => ?_) fun hm => ?_
    · have htop := (hin.after.mem_ancestors_iff_top? (live_of_mem_ancestors hm) hparent').mp hm
      rw [h.top? hx] at htop
      have hback : old ∈ s.ancestors p := List.mem_of_getLast? htop
      exact hout.before.notMem_ancestors_of_parent? h.child hback
    · obtain ⟨c, hc, hx⟩ := hx
      exact hm.2 c hc hx
  · have hnot : ∀ c ∈ nodes, c ∉ s.ancestors x := fun c hc hm => hx ⟨c, hc, hm⟩
    rw [hin.ancestors x fun c hc => (hiff c hc x).not.mpr (hnot c hc), and_iff_left hnot]
    exact ⟨fun hm => by_contra fun hnm => hnm (hout.ancestors hnm ▸ hm), hout.mem_ancestors⟩

end Replaces

namespace WellFormed

/-- **Nodes take the place of a node, unless it is detached.** -/
theorem ends_replaceWith (h : s.WellFormed) (old : NodeRef) (nodes : List NodeRef) :
    Ends (replaceWith old nodes) s
      (fun _ s' => (s.parent? old).elim (s' = s) fun p =>
        if old ∈ nodes then s.Carries p nodes s' else s.Replaces old p nodes s')
      fun _ => True := by
  unfold replaceWith
  refine Ends.get_bind ?_
  split
  · rename_i hp
    rw [hp]
    exact (ends_discard_require s old).mono (fun _ _ he => he.1) fun _ _ => trivial
  · rename_i p hp
    rw [hp]
    refine ((ends_checkInsertions s p nodes).mono (fun _ _ he => he) fun _ _ => trivial).bind ?_
    rintro _ s rfl
    refine Ends.get_bind (Ends.ite (fun hm => ?_) fun hm => ?_)
    · rw [List.contains_iff_mem] at hm
      simp only [Option.elim_some, if_pos hm]
      exact h.ends_insertAt p nodes _
    · rw [List.contains_iff_mem] at hm
      simp only [Option.elim_some, if_neg hm]
      have hout : Ends (detach old) s (fun _ u => s.Reparents u old none) fun _ => True := by
        unfold detach
        refine ((ends_discard_require s old).mono (fun _ _ he => he.1) fun _ _ => trivial).bind ?_
        rintro _ _ rfl
        exact Ends.modify (h.takeOut old)
      refine hout.bind fun _ u hu => ?_
      exact (hu.after.ends_insertAt p nodes _).mono (fun _ _ hc => ⟨hp, hm, u, hu, hc⟩) fun _ he => he

end WellFormed

end DomHost.Store
