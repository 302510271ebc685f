import DomHost.Proofs.Scene.Frame
import DomHost.Proofs.Scene.NewNodes
import DomHost.Proofs.Store.Still

/-!
# Detached trees and the ids in them

A detached tree is reached through the ids of its nodes, unless it is kept for a template. Nodes are moved
and freed, and ids move on, so the tree may lose what reaches it; unless somebody looks at it then, it is
left behind.

* `Scene.Tidy`: no node is left behind;
* `Scene.Loose`, `Scene.Owns`, **`Scene.Sound.tidy_iff`**: the same, seen from the tops of detached trees;
* **`Scene.Leaves.tidy_iff`**: when a scene is tidy after a change;
* **`Scene.Shifts.leaves`**: nodes that are moved and freed around one node;
* **`Scene.Readies.ends_bind`**, `Scene.Rebinds.ends_reclaim`: ids that move on.
-/

namespace DomHost.Scene

variable {κ : Type} {closed : Prop} {s t u : Scene κ} {ts ts' : List (Node × Forest Node)} {r x y : NodeRef}
  {looked lost moved gone : NodeRef → Prop} {ids : List NodeId}

/-! ## Nodes that are left behind -/

/-- Is the node bound to an id? -/
def Bound (s : Scene κ) (x : NodeRef) : Prop := ∃ id, s.bindings.get? id = some x

/-- Every live node is connected to the document, in the tree of a template, or in a tree in which a node
is bound. -/
def Tidy (s : Scene κ) : Prop :=
  ∀ r, (s.store.get? r).isSome → s.store.isConnected r = true ∨
    (∃ number tm, s.templates.get? number = some tm ∧ r ∈ s.store.descendants tm.root) ∨
      ∃ x, s.Bound x ∧ s.store.top? x = s.store.top? r

/-- The node is the top of a detached tree that is not kept for a template. -/
structure Loose (s : Scene κ) (y : NodeRef) : Prop where
  live : s.store.Live y
  detached : s.store.parent? y = none
  apart : y ≠ .root
  unkept : ∀ number tm, s.templates.get? number = some tm → tm.root ≠ y

/-- The second node is bound, in the tree with the first node at its top. -/
def Owns (s : Scene κ) (y x : NodeRef) : Prop := s.Bound x ∧ s.store.top? x = some y

/-- Is a node bound in the tree with this top? -/
def Reached (s : Scene κ) (y : NodeRef) : Prop := ∃ x, s.Owns y x

theorem Loose.ancestors (h : s.Loose y) (hw : s.store.WellFormed) : s.store.ancestors y = [y] :=
  hw.ancestors_of_parent?_none h.live h.detached

theorem Loose.top? (h : s.Loose y) (hw : s.store.WellFormed) : s.store.top? y = some y :=
  hw.top?_of_parent?_none h.live h.detached

theorem Loose.reached (h : s.Loose y) (hw : s.store.WellFormed) (hb : s.Bound y) : s.Reached y :=
  ⟨y, hb, h.top? hw⟩

/-- The top of a tree stays one as long as its way up does. -/
theorem Loose.of_ancestors (h : s.Loose y) (hup : t.store.ancestors y = s.store.ancestors y)
    (hkept : ∀ number tm, t.templates.get? number = some tm → tm.root ≠ y) : t.Loose y where
  live := by
    rw [Store.live_iff_ancestors, hup]
    exact Store.live_iff_ancestors.mp h.live
  detached := by rw [Store.parent?, hup, ← Store.parent?, h.detached]
  apart := h.apart
  unkept := hkept

namespace Sound

theorem live_of_bound (h : s.Sound closed ts) (hb : s.Bound x) : s.store.Live x := by
  obtain ⟨id, hid⟩ := hb
  exact h.store.live x (List.mem_append_left _ (Bindings.mem_nodes_of_get? hid))

/-- **A scene is tidy if a node is bound in every detached tree that no template keeps.** -/
theorem tidy_iff (h : s.Sound closed ts) : s.Tidy ↔ ∀ y, s.Loose y → s.Reached y := by
  have hw := h.store.wellFormed
  constructor
  · intro ht y hy
    rcases ht y (Store.get?_isSome_iff.mpr hy.live) with hc | ⟨number, tm, he, hm⟩ | ⟨x, hx, htop⟩
    · rw [Store.isConnected, hy.ancestors hw] at hc
      exact absurd (by simpa using hc) hy.apart
    · rw [hw.mem_descendants_iff, hy.ancestors hw, List.mem_singleton] at hm
      exact absurd hm (hy.unkept number tm he)
    · exact ⟨x, hx, htop.trans (hy.top? hw)⟩
  · intro hall r hr
    obtain ⟨y, hy⟩ := Store.WellFormed.top?_isSome (Store.get?_isSome_iff.mp hr)
    obtain ⟨hl, hp⟩ := hw.parent?_top? hy
    by_cases hroot : y = .root
    · refine Or.inl ?_
      rw [Store.isConnected, ← Store.top?, hy, hroot]
      exact beq_self_eq_true _
    by_cases hkept : ∃ number tm, s.templates.get? number = some tm ∧ tm.root = y
    · obtain ⟨number, tm, he, rfl⟩ := hkept
      exact Or.inr (Or.inl ⟨number, tm, he, hw.mem_descendants_iff.mpr (List.mem_of_getLast? hy)⟩)
    · have hloose : s.Loose y := ⟨hl, hp, hroot, fun number tm he hey => hkept ⟨number, tm, he, hey⟩⟩
      obtain ⟨x, hx, htop⟩ := hall y hloose
      exact Or.inr (Or.inr ⟨x, hx, htop.trans hy.symm⟩)

end Sound

/-! ## What a change leaves -/

/-- A change that looks at some detached trees, and takes some bound nodes out of their trees or their ids
from them. -/
structure Leaves (looked lost : NodeRef → Prop) (s t : Scene κ) : Prop where
  fresh : ∀ y, t.Loose y → s.Loose y ∨ t.Reached y
  /-- A tree that was looked at is reached, if it is still there. -/
  checked : ∀ y, looked y → t.Loose y → t.Reached y
  /-- Any other tree is still there, and is reached through what it has not lost. -/
  others : ∀ y, s.Loose y → ¬ looked y → t.Loose y ∧ (t.Reached y ↔ ∃ x, s.Owns y x ∧ ¬ lost x)

/-- **After a change a scene is tidy if every tree was looked at or has not lost all that reached it.** -/
theorem Leaves.tidy_iff (h : s.Leaves looked lost t) (ht : t.Sound closed ts) :
    t.Tidy ↔ ∀ y, s.Loose y → looked y ∨ ∃ x, s.Owns y x ∧ ¬ lost x := by
  rw [ht.tidy_iff]
  constructor
  · intro hall y hy
    by_cases hlook : looked y
    · exact Or.inl hlook
    · obtain ⟨hstill, hiff⟩ := h.others y hy hlook
      exact Or.inr (hiff.mp (hall y hstill))
  · intro hall y hy
    rcases h.fresh y hy with hold | hreached
    · by_cases hlook : looked y
      · exact h.checked y hlook hy
      · exact (h.others y hold hlook).2.mpr ((hall y hold).resolve_left hlook)
    · exact hreached

/-- A detached tree in which no node is bound may be freed, as long as somebody looks at it. -/
theorem Leaves.without (h : s.Leaves (fun _ => False) lost t) (ht : t.Sound closed ts)
    (hu : u.Sound closed ts) (hl : t.store.Live r) (hp : t.store.parent? r = none) (hne : r ≠ .root)
    (hstore : u.store = t.store.without r) (htemplates : u.templates = t.templates)
    (hbound : ∀ x, u.Bound x ↔ t.Bound x) : s.Leaves (· = r) lost u := by
  have hw := ht.store.wellFormed
  have hlive : ∀ x, u.store.Live x ↔ t.store.Live x ∧ t.store.top? x ≠ some r := fun x => by
    rw [hstore, hw.distinct.live_without, hw.mem_descendants_iff, hw.mem_ancestors_iff_top? hl hp]
  have hup : ∀ x, t.store.top? x ≠ some r → u.store.ancestors x = t.store.ancestors x := fun x hx => by
    rw [hstore, hw.ancestors_without hne]
    rwa [hw.mem_descendants_iff, hw.mem_ancestors_iff_top? hl hp]
  have hreached : ∀ y, y ≠ r → (u.Reached y ↔ t.Reached y) := fun y hyr => by
    refine exists_congr fun x => ?_
    rw [Owns, Owns, hbound]
    refine and_congr_right fun hb => ?_
    by_cases hx : t.store.top? x = some r
    · refine iff_of_false (fun _ => ?_) fun htx => hyr (Option.some.inj (htx.symm.trans hx))
      exact ((hlive x).mp (hu.live_of_bound ((hbound x).mpr hb))).2 hx
    · rw [Store.top?, hup x hx, Store.top?]
  refine ⟨fun y hy => ?_, fun y hy hloose => ?_, fun y hy hyr => ?_⟩
  · obtain ⟨hly, hytop⟩ := (hlive y).mp hy.live
    have hyr : y ≠ r := by
      rintro rfl
      exact hytop (hw.top?_of_parent?_none hly hp)
    rw [hreached y hyr]
    exact h.fresh y (hy.of_ancestors (hup y hytop).symm (htemplates ▸ hy.unkept))
  · subst hy
    exact absurd (hw.top?_of_parent?_none hl hp) ((hlive y).mp hloose.live).2
  · obtain ⟨hloose, hiff⟩ := h.others y hy not_false
    have hytop : t.store.top? y ≠ some r := by
      rw [hloose.top? hw]
      exact fun he => hyr (Option.some.inj he)
    exact ⟨hloose.of_ancestors (hup y hytop) (htemplates ▸ hloose.unkept), (hreached y hyr).trans hiff⟩

/-! ## Nodes that are moved and freed -/

/-- Some nodes are moved to the tree of a node, some are freed, and new ones come only to that tree. All
others stay where they are. -/
structure Shifts (r : NodeRef) (moved gone : NodeRef → Prop) (s t : Scene κ) : Prop where
  new : ∀ x, t.store.Live x → s.store.Live x ∧ ¬ gone x ∨ t.store.top? x = s.store.top? r
  top? : ∀ x, moved x → t.store.top? x = s.store.top? r
  ancestors : ∀ x, s.store.Live x → ¬ moved x → ¬ gone x → t.store.ancestors x = s.store.ancestors x
  bindings : s.bindings.Unbinds gone t.bindings
  templates : t.templates = s.templates

/-- What nodes that move and nodes that are freed mean for the trees they were in. -/
structure Shifts.Costs (r : NodeRef) (moved gone looked lost : NodeRef → Prop) (s t : Scene κ) : Prop where
  bound : ∀ y, looked y → t.store.Live y → t.Bound y
  tops : ∀ y, s.Loose y → moved y ∨ gone y → looked y
  moving : ∀ x, moved x → ¬ gone x ∧ (lost x ↔ s.store.top? x ≠ s.store.top? r)
  /-- Freed nodes were in the tree of the node. If they do not count as lost, others reach this tree. -/
  freeing : ∀ x, gone x → s.store.top? x = s.store.top? r ∧
    (¬ lost x → ∃ y, t.Bound y ∧ t.store.top? y = s.store.top? r)
  resting : ∀ x, ¬ moved x → ¬ gone x → ¬ lost x
  /-- Nodes are moved to a tree that is reached before. -/
  target : ∀ x, moved x → s.Bound r ∧ ¬ lost r

theorem Shifts.bound_iff (h : s.Shifts r moved gone t) : t.Bound x ↔ s.Bound x ∧ ¬ gone x := by
  simp only [Bound, h.bindings _ _, exists_and_right]

/-- **Moving and freeing nodes around one node.** -/
theorem Shifts.leaves (h : s.Shifts r moved gone t) (hs : s.Sound closed ts) (ht : t.Sound closed ts')
    (hc : Shifts.Costs r moved gone looked lost s t) : s.Leaves looked lost t where
  fresh := by
    intro y hy
    have hkept : ∀ number tm, s.templates.get? number = some tm → tm.root ≠ y := h.templates ▸ hy.unkept
    -- a node at the top that has changed its tree is the top of the tree it has come to
    have htop : t.store.top? y = s.store.top? r → s.Loose y := fun htop => by
      rw [hy.top? ht.store.wellFormed] at htop
      obtain ⟨hl, hp⟩ := hs.store.wellFormed.parent?_top? htop.symm
      exact ⟨hl, hp, hy.apart, hkept⟩
    refine Or.inl ((h.new y hy.live).elim (fun hl => ?_) htop)
    by_cases hm : moved y
    · exact htop (h.top? y hm)
    · exact hy.of_ancestors (h.ancestors y hl.1 hm hl.2).symm hkept
  checked y hlook hy := hy.reached ht.store.wellFormed (hc.bound y hlook hy.live)
  others := by
    intro y hy hlook
    have hm : ¬ moved y := fun hm => hlook (hc.tops y hy (Or.inl hm))
    have hg : ¬ gone y := fun hg => hlook (hc.tops y hy (Or.inr hg))
    have hup := h.ancestors y hy.live hm hg
    refine ⟨hy.of_ancestors hup (h.templates ▸ hy.unkept), ?_, ?_⟩
    · rintro ⟨x, hx, htop⟩
      obtain ⟨hb, hgx⟩ := h.bound_iff.mp hx
      by_cases hmx : moved x
      · obtain ⟨hr, hkeep⟩ := hc.target x hmx
        exact ⟨r, ⟨hr, (h.top? x hmx).symm.trans htop⟩, hkeep⟩
      · have hupx := h.ancestors x (hs.live_of_bound hb) hmx hgx
        rw [Store.top?, hupx] at htop
        exact ⟨x, ⟨hb, htop⟩, hc.resting x hmx hgx⟩
    · rintro ⟨x, ⟨hb, htop⟩, hkeep⟩
      by_cases hgx : gone x
      · obtain ⟨hsame, hother⟩ := hc.freeing x hgx
        obtain ⟨z, hz, hztop⟩ := hother hkeep
        exact ⟨z, hz, hztop.trans (hsame.symm.trans htop)⟩
      · refine ⟨x, h.bound_iff.mpr ⟨hb, hgx⟩, ?_⟩
        by_cases hmx : moved x
        · have hsame := not_not.mp fun hne => hkeep ((hc.moving x hmx).2.mpr hne)
          exact (h.top? x hmx).trans (hsame.symm.trans htop)
        · rw [Store.top?, h.ancestors x (hs.live_of_bound hb) hmx hgx]
          exact htop

/-- Where no node moves and no id changes, nothing is lost. -/
theorem Sound.leaves_of_still (hs : s.Sound closed ts) (ht : t.Sound closed ts')
    (hstill : s.store.Still t.store) (hb : t.bindings = s.bindings) (htm : t.templates = s.templates)
    (hlook : ∀ y, looked y → s.Bound y) (hlost : ∀ x, ¬ lost x) : s.Leaves looked lost t := by
  have hshifts : s.Shifts .root (fun _ => False) (fun _ => False) t :=
    ⟨fun _ hl => Or.inl ⟨hstill.live.mp hl, not_false⟩, fun _ hf => hf.elim, fun x _ _ _ => hstill x,
      hb ▸ .refl _ fun _ _ _ => not_false, htm⟩
  have hbound : ∀ y, looked y → t.Bound y := fun y hy => by
    rw [Bound, hb]
    exact hlook y hy
  exact hshifts.leaves hs ht ⟨fun y hy _ => hbound y hy, fun _ _ hf => (hf.elim id id).elim,
    fun _ hf => hf.elim, fun _ hf => hf.elim, fun x _ _ => hlost x, fun _ hf => hf.elim⟩

/-! ## Ids that move on -/

/-- Ids have moved from some nodes, and new nodes are there, but no node is given up yet. -/
structure Rebinds (lost : NodeRef → Prop) (s t : Scene κ) : Prop where
  templates : t.templates = s.templates
  kept : ∀ x, s.store.Live x → t.store.ancestors x = s.store.ancestors x
  new : ∀ x, t.store.Live x → s.store.Live x ∨
    ∃ y, ¬ s.store.Live y ∧ t.store.top? x = some y ∧ t.Reached y
  bound : ∀ x, s.store.Live x → s.store.top? x ≠ some .root → (t.Bound x ↔ s.Bound x ∧ ¬ lost x)

namespace Rebinds

theorem top? (h : s.Rebinds lost t) (hl : s.store.Live x) : t.store.top? x = s.store.top? x :=
  congrArg List.getLast? (h.kept x hl)

/-- What reaches a tree that was there. -/
theorem owns_iff (h : s.Rebinds lost t) (hs : s.Sound closed ts) (hy : s.Loose y) :
    t.Owns y x ∧ t.store.Live x ↔ s.Owns y x ∧ ¬ lost x := by
  have hbound : s.store.Live x → s.store.top? x = some y → (t.Bound x ↔ s.Bound x ∧ ¬ lost x) :=
    fun hl htop => h.bound x hl (htop ▸ fun he => hy.apart (Option.some.inj he))
  constructor
  · rintro ⟨⟨hb, htop⟩, hl⟩
    rcases h.new x hl with hl | ⟨z, hz, hztop, -⟩
    · rw [h.top? hl] at htop
      obtain ⟨hb, hkeep⟩ := (hbound hl htop).mp hb
      exact ⟨⟨hb, htop⟩, hkeep⟩
    · exact absurd hy.live (Option.some.inj (htop.symm.trans hztop) ▸ hz)
  · rintro ⟨⟨hb, htop⟩, hkeep⟩
    have hl := hs.live_of_bound hb
    refine ⟨⟨(hbound hl htop).mpr ⟨hb, hkeep⟩, (h.top? hl).trans htop⟩, ?_⟩
    rw [Store.live_iff_ancestors, h.kept x hl]
    exact Store.live_iff_ancestors.mp hl

/-- The ids may be kept in another order. -/
theorem congr (h : s.Rebinds lost t) (hstore : u.store = t.store) (htemplates : u.templates = t.templates)
    (hbound : ∀ x, u.Bound x ↔ t.Bound x) : s.Rebinds lost u := by
  refine ⟨htemplates.trans h.templates, fun x hx => by rw [hstore, h.kept x hx], fun x hx => ?_,
    fun x hx hroot => (hbound x).trans (h.bound x hx hroot)⟩
  rw [hstore] at hx ⊢
  refine (h.new x hx).imp id ?_
  rintro ⟨y, hy, htop, z, hz, hztop⟩
  exact ⟨y, hy, htop, z, (hbound z).mpr hz, by rw [hstore]; exact hztop⟩

/-- Nothing is given up, and all trees that are looked at are reached. -/
theorem leaves (h : s.Rebinds lost t) (hs : s.Sound closed ts) (ht : t.Sound closed ts)
    (hlook : ∀ y, looked y → t.Loose y → t.Reached y) : s.Leaves looked lost t where
  fresh := by
    intro y hy
    refine (h.new y hy.live).imp (fun hl => ?_) ?_
    · exact hy.of_ancestors (h.kept y hl).symm (h.templates ▸ hy.unkept)
    · rintro ⟨z, -, hztop, hz⟩
      exact Option.some.inj (hztop.symm.trans (hy.top? ht.store.wellFormed)) ▸ hz
  checked := hlook
  others := by
    intro y hy _
    refine ⟨hy.of_ancestors (h.kept y hy.live) (h.templates ▸ hy.unkept), exists_congr fun x => ?_⟩
    rw [← h.owns_iff hs hy]
    exact (and_iff_left_of_imp fun hx => ht.live_of_bound hx.1).symm

/-- **A tree that an id has left is given up unless another id reaches it.** -/
theorem ends_reclaim (h : s.Rebinds lost t) (hs : s.Sound closed ts) (ht : t.Sound closed ts)
    (hr : r ∉ Store.refsOf ts) :
    Ends (reclaim r) t (fun _ u => s.Leaves (· = r) lost u) fun _ => False := by
  have hw := ht.store.wellFormed
  have hend := ((ht.ends_reclaim r).and (ht.reclaim hr)).and
    (keeps_reclaim lasting_templates (fun _ _ => rfl) (fun _ _ _ => rfl) r t)
  refine hend.mono (fun _ u hu => ?_) fun _ he => he.1.1
  obtain ⟨⟨⟨hids, hstore⟩, hu⟩, htemplates⟩ := hu
  have hbound : ∀ x, u.Bound x ↔ t.Bound x := fun x => exists_congr fun id => by rw [hids]
  by_cases ho : t.isOrphan r = true
  · rw [if_pos ho] at hstore
    obtain ⟨hne, hlive, hp, -⟩ := (isOrphan_iff hw).mp ho
    exact (h.leaves hs ht fun _ hf => hf.elim).without ht hu hlive hp hne hstore htemplates hbound
  · rw [if_neg ho] at hstore
    refine (h.congr hstore htemplates hbound).leaves hs hu fun y hy hloose => ?_
    -- it was not given up because a node in it is bound
    subst hy
    by_contra hn
    refine ho ((isOrphan_iff hw).mpr ⟨hloose.apart, hstore ▸ hloose.live, hstore ▸ hloose.detached,
      fun x hx => ?_⟩)
    rw [← hstore] at hx
    by_contra hid
    obtain ⟨id, hid⟩ := Option.ne_none_iff_exists'.mp hid
    have hb : u.Bound x := (hbound x).mpr ⟨id, ht.bindings.get?_eq_some_iff_idOf?.mpr hid⟩
    exact hn ⟨x, hb, (hu.store.wellFormed.mem_ancestors_iff_top? hloose.live hloose.detached).mp hx⟩

end Rebinds

/-- A scene in which a node is about to get an id. New nodes are below it, and some ids have been bound
there. -/
structure Readies (ids : List NodeId) (r : NodeRef) (s t : Scene κ) : Prop where
  templates : t.templates = s.templates
  kept : ∀ x, s.store.Live x → t.store.ancestors x = s.store.ancestors x
  new : ∀ x, t.store.Live x → s.store.Live x ∨ ¬ s.store.Live r ∧ t.store.top? x = some r
  others : ∀ j, j ∉ ids → t.bindings.get? j = s.bindings.get? j
  within : ∀ j ∈ ids, ∀ x, t.bindings.get? j = some x → r ∈ t.store.ancestors x
  /-- The node is new, or in the document. -/
  target : ∀ x, s.store.Live x → r ∈ s.store.ancestors x → s.store.top? x = some .root

namespace Readies

/-- Before an id is bound, a new tree may have got other ids. -/
theorem of_adds (ha : s.store.Adds [r] t.store) (hset : s.Settles ids r t)
    (htemplates : t.templates = s.templates) : s.Readies ids r t where
  templates := htemplates
  kept := ha.ancestors
  new := by
    intro x hx
    obtain ⟨hnew, hl, hp⟩ := ha.fresh r (List.mem_singleton_self r)
    refine (ha.below x hx).imp id fun ⟨c, hc, hm⟩ => ⟨hnew, ?_⟩
    rw [List.mem_singleton.mp hc] at hm
    exact (ha.after.mem_ancestors_iff_top? hl hp).mp hm
  others := hset.others
  within := hset.within
  target _ _ hm := absurd (Store.live_of_mem_ancestors hm) (ha.fresh r (List.mem_singleton_self r)).1

/-- Before an id is bound to a node of the document, nothing has happened. -/
theorem of_connected (hw : s.store.WellFormed) (hr : s.store.top? r = some .root) : s.Readies [] r s where
  templates := rfl
  kept _ _ := rfl
  new _ hx := Or.inl hx
  others _ _ := rfl
  within _ hj := absurd hj List.not_mem_nil
  target _ _ hm := (hw.top?_of_mem hm).symm.trans hr

theorem rebinds (h : s.Readies ids r t) (hs : s.Sound closed ts) (ht : t.Sound closed ts) (id : NodeId)
    (hl : t.store.Live r) :
    s.Rebinds (fun x => ∃ j ∈ id :: ids, s.bindings.get? j = some x)
      { t with bindings := t.bindings.bind id r } where
  templates := h.templates
  kept := h.kept
  new := by
    intro x hx
    refine (h.new x hx).imp_right fun ⟨hr, htop⟩ => ⟨r, hr, htop, r, ⟨id, ?_⟩, ?_⟩
    · exact ht.bindings.get?_bind_self id r
    · have hup := ht.store.wellFormed.top?_of_mem (List.mem_of_getLast? htop)
      exact hup.trans htop
  bound := by
    intro x hx hroot
    have hup : r ∉ t.store.ancestors x := fun hm => hroot (h.target x hx (h.kept x hx ▸ hm))
    have hne : r ≠ x := by
      rintro rfl
      exact hup (Store.mem_ancestors_self hl)
    constructor
    · rintro ⟨j, hj⟩
      change (t.bindings.bind id r).get? j = some x at hj
      rw [ht.bindings.get?_bind] at hj
      split at hj
      · exact absurd (Option.some.inj hj) hne
      split at hj
      · exact absurd hj (by simp)
      rename_i hjid _
      have hjids : j ∉ ids := fun hm => hup (h.within j hm x hj)
      rw [h.others j hjids] at hj
      refine ⟨⟨j, hj⟩, fun ⟨k, hk, hkx⟩ => ?_⟩
      obtain rfl := hs.bindings.get?_injective hj hkx
      exact (List.mem_cons.mp hk).elim hjid hjids
    · rintro ⟨⟨j, hj⟩, hkeep⟩
      have hjid : j ∉ id :: ids := fun hm => hkeep ⟨j, hm, hj⟩
      obtain ⟨hjne, hjids⟩ := not_or.mp (List.mem_cons.not.mp hjid)
      rw [← h.others j hjids] at hj
      refine ⟨j, ?_⟩
      change (t.bindings.bind id r).get? j = some x
      rw [ht.bindings.get?_bind, if_neg hjne, if_neg, hj]
      intro hown
      rw [← ht.bindings.get?_eq_some_iff_idOf?, hj] at hown
      exact hne (Option.some.inj hown).symm

/-- **An id moves to a node, and the tree it has left is given up unless another id reaches it.** -/
theorem ends_bind (h : s.Readies ids r t) (hs : s.Sound closed ts) (ht : t.Sound closed ts) (id : NodeId)
    (hl : t.store.Live r) (hr : r ∉ Store.refsOf ts) :
    Ends (Scene.bind id r) t
      (fun _ u => s.Leaves (fun y => id ∉ ids ∧ s.bindings.get? id = some y)
        (fun x => ∃ j ∈ id :: ids, s.bindings.get? j = some x) u)
      fun _ => False := by
  have hrebinds := h.rebinds hs ht id hl
  have htie := ht.tie id hl hr
  unfold Scene.bind
  refine Ends.get_bind ?_
  refine (Ends.modify (f := fun s : Scene κ => { s with bindings := s.bindings.bind id r })
    (Q := fun _ u => u = { t with bindings := t.bindings.bind id r }) rfl).bind ?_
  rintro _ _ rfl
  cases hold : (t.bindings.get? id).filter (· != r) with
  | none =>
    -- if the id has left no tree, it was bound to the node before
    refine Ends.pure (hrebinds.leaves hs htie fun y hlook hy => ?_)
    obtain ⟨hid, hget⟩ := hlook
    rw [h.others id hid, hget, Option.filter_eq_none_iff] at hold
    have hyr : y = r := by simpa using hold y rfl
    exact hy.reached htie.store.wellFormed ⟨id, hyr ▸ ht.bindings.get?_bind_self id r⟩
  | some old =>
    obtain ⟨hget, hne⟩ := Option.filter_eq_some_iff.mp hold
    rw [bne_iff_ne] at hne
    by_cases hid : id ∈ ids
    · -- it has left a node below the one it moves to, which is not given up
      have hbelow := h.within id hid old hget
      have hparent : t.store.parent? old ≠ none := fun hp => by
        rw [ht.store.wellFormed.ancestors_of_parent?_none (Store.live_of_ancestors hbelow) hp,
          List.mem_singleton] at hbelow
        exact hne hbelow.symm
      refine Ends.get_bind (Ends.ite (fun ho => ?_) fun _ => ?_)
      · exact absurd ((isOrphan_iff htie.store.wellFormed).mp ho).2.2.1 hparent
      · exact Ends.pure (hrebinds.leaves hs htie fun y hlook => absurd hid hlook.1)
    · rw [h.others id hid] at hget
      refine (hrebinds.ends_reclaim hs htie (hs.notMem_of_get? hget)).mono (fun _ u hu => ?_) fun _ he => he
      have hlook : (fun y => id ∉ ids ∧ s.bindings.get? id = some y) = (· = old) := by
        funext y
        rw [hget, Option.some.injEq, eq_iff_iff, and_iff_right hid, eq_comm]
      rwa [hlook]

end Readies

/-- **An id is given up, and so is its tree unless another id reaches it.** -/
theorem Sound.leaves_freeId (h : s.Sound closed ts) (id : NodeId) :
    Ends (Scene.execute (.freeId id)) s
      (fun _ t => s.Leaves (fun y => s.bindings.get? id = some y) (fun x => s.bindings.get? id = some x) t)
      fun _ => False := by
  have hrebinds : s.Rebinds (fun x => s.bindings.get? id = some x)
      { s with bindings := s.bindings.release id } := by
    refine ⟨rfl, fun _ _ => rfl, fun _ hx => Or.inl hx, fun x _ _ => ⟨?_, ?_⟩⟩
    · rintro ⟨j, hj⟩
      change (s.bindings.release id).get? j = some x at hj
      rw [Bindings.get?_release] at hj
      split at hj
      · exact absurd hj (by simp)
      · rename_i hjid
        exact ⟨⟨j, hj⟩, fun hid => hjid (h.bindings.get?_injective hj hid)⟩
    · rintro ⟨⟨j, hj⟩, hid⟩
      refine ⟨j, ?_⟩
      change (s.bindings.release id).get? j = some x
      rw [Bindings.get?_release, if_neg fun he : j = id => hid (he ▸ hj), hj]
  refine Ends.get_bind ?_
  split
  · rename_i r hr
    refine (Ends.modify (f := fun s : Scene κ => { s with bindings := s.bindings.release id })
      (Q := fun _ t => t = { s with bindings := s.bindings.release id }) rfl).bind ?_
    rintro _ _ rfl
    refine (hrebinds.ends_reclaim h (h.release id) (h.notMem_of_get? hr)).mono (fun _ t ht => ?_)
      fun _ he => he
    have hlook : (fun y => s.bindings.get? id = some y) = (· = r) := by
      funext y
      rw [hr, Option.some.injEq, eq_iff_iff, eq_comm]
    rwa [hlook] at ht ⊢
  · rename_i hr
    refine Ends.pure (Rebinds.leaves ?_ h h fun y hy => absurd (hr.symm.trans hy) (by simp))
    refine ⟨rfl, fun _ _ => rfl, fun _ hx => Or.inl hx, fun x _ _ => (and_iff_left ?_).symm⟩
    exact fun hx => absurd (hr.symm.trans hx) (by simp)

end DomHost.Scene
