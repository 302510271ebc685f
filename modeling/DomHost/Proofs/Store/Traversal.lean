import DomHost.Proofs.Store.Copies
import DomHost.Store.Traversal

/-!
# Trees in pre-order

A walk along links passes the nodes of a tree one by one and ends. It needs no stack: from the last node of a tree the
climb leads where the one from the top of the tree leads, so the trees of a row are passed one after the other, and
then what comes behind the row.

* `Store.Listing`: the nodes of a row of trees, read off from the child lists;
* `Store.Traverses`: the nodes of a tree in pre-order;
* `Store.Climbs.of_parent?`, `Store.Onward.of_climbs`: one round of a climb, and of a walk;
* **`Store.WalksFrom.unique`**: there is at most one walk;
* **`Store.WellFormed.walksFrom_row`**: a walk through a row of trees;
* **`Store.WellFormed.walk_traverses`**: a walk ends, and passes what is below the node in pre-order.
-/

namespace DomHost

/-- The labels of a tree come in the forest in the same order. -/
theorem Forest.labels_sublist {α : Type} {f : Forest α} {t : α × Forest α} (h : t ∈ f.trees) :
    (labels t).Sublist f.toList := by
  induction f with
  | nil => cases h
  | node a c n ihc ihn =>
    rw [toList_node]
    rcases List.mem_cons.mp h with rfl | h
    · exact (List.sublist_append_left _ _).cons_cons a
    · refine List.Sublist.cons a ?_
      rcases List.mem_append.mp h with h | h
      · exact (ihc h).trans (List.sublist_append_left _ _)
      · exact (ihn h).trans (List.sublist_append_right _ _)

namespace Store

variable {s : Store} {root r p q x y : NodeRef} {n : Node} {k : Forest Node} {o : Option NodeRef}
  {l rest : List NodeRef}

/-! ## Listings -/

/-- The nodes of a row of trees by their child lists: each node is followed by the listing of its children, and then
by the trees behind it. -/
inductive Listing (s : Store) : List NodeRef → List NodeRef → Prop
  | nil : Listing s [] []
  | cons {r : NodeRef} {rs below behind : List NodeRef} (hb : Listing s (s.children r) below)
      (hn : Listing s rs behind) : Listing s (r :: rs) (r :: (below ++ behind))

/-- The nodes of a tree in pre-order. -/
structure Traverses (s : Store) (r : NodeRef) (l : List NodeRef) : Prop where
  nodup : l.Nodup
  mem_iff : ∀ x, x ∈ l ↔ s.isInclusiveAncestor r x = true
  /-- A node comes behind its parent. -/
  parent : ∀ x ∈ l, x ≠ r → ∃ p, s.parent? x = some p ∧ [p, x].Sublist l
  /-- A node comes behind all that is at or below a sibling in front of it. -/
  siblings : ∀ x ∈ l, x ≠ r → ∀ a ∈ s.preceding x, ∀ y, s.isInclusiveAncestor a y = true → [y, x].Sublist l
  listing : s.Listing [r] l

theorem WellFormed.listing_row (h : s.WellFormed) (hk : ∀ v ∈ k.trees, v ∈ s.forest.trees) :
    s.Listing (k.roots.map (·.ref)) (k.toList.map (·.ref)) := by
  induction k with
  | nil => exact .nil
  | node m j l ihj ihl =>
    have hchildren := children_of_tree? (h.tree?_eq_some (hk (m, j) List.mem_cons_self))
    rw [Forest.toList_node, List.map_cons, List.map_append]
    refine .cons ?_ (ihl fun v hv => hk v (List.mem_cons_of_mem _ (List.mem_append_right _ hv)))
    rw [hchildren]
    exact ihj fun v hv => hk v (List.mem_cons_of_mem _ (List.mem_append_left _ hv))

theorem WellFormed.listing_descendants (h : s.WellFormed) (hr : s.Live r) : s.Listing [r] (s.descendants r) := by
  obtain ⟨n, k, ht⟩ := exists_tree? hr
  obtain ⟨htree, rfl⟩ := mem_trees_of_tree? ht
  have hbelow := h.listing_row fun v hv => Forest.mem_trees_of_mem_below htree hv
  rw [← children_of_tree? ht] at hbelow
  rw [descendants_of_tree? ht, Forest.labels_mk, List.map_cons, ← List.append_nil (k.toList.map _)]
  exact .cons hbelow .nil

/-! ## Order -/

/-- What is below a node on the way comes in the same order from there. -/
theorem Distinct.descendants_sublist (h : s.Distinct) (hx : x ∈ s.descendants r) :
    (s.descendants x).Sublist (s.descendants r) := by
  cases ht : s.tree? r with
  | none => simp [descendants, ht] at hx
  | some t =>
    obtain ⟨n, k⟩ := t
    obtain ⟨v, hv, -, hxv⟩ := h.exists_tree?_below ht hx
    rw [descendants_of_tree? ht, descendants_of_tree? hxv]
    refine List.Sublist.map _ ?_
    rcases List.mem_cons.mp hv with rfl | hv
    · exact List.Sublist.refl _
    · exact (Forest.labels_sublist hv).trans (List.sublist_cons_self _ _)

namespace WellFormed

variable (h : s.WellFormed)
include h

/-- A node below another has its parent there. -/
theorem parent?_of_mem_descendants (hx : x ∈ s.descendants r) (hne : x ≠ r) :
    ∃ p, s.parent? x = some p ∧ p ∈ s.descendants r := by
  rw [h.mem_descendants_iff] at hx
  obtain ⟨c, -, hc⟩ := h.exists_child hx hne
  cases hp : s.parent? x with
  | none =>
    rw [h.ancestors_of_parent?_none (live_of_ancestors hx) hp] at hx
    exact absurd (List.mem_singleton.mp hx).symm hne
  | some p =>
    rw [h.ancestors_of_parent? hp] at hx
    exact ⟨p, rfl, h.mem_descendants_iff.mpr ((List.mem_cons.mp hx).resolve_left hne.symm)⟩

/-- The nodes below a parent, around one of its children. -/
theorem exists_around (hp : s.parent? x = some p) : ∃ back,
    s.descendants p = p :: ((s.preceding x).flatMap s.descendants ++ x :: back) := by
  have hchild := h.parent?_eq_some_iff.mp hp
  obtain ⟨hlive, hx⟩ := live_of_child hchild
  obtain ⟨front, back, hc⟩ := List.append_of_mem hchild
  refine ⟨(s.children x).flatMap s.descendants ++ back.flatMap s.descendants, ?_⟩
  rw [h.distinct.descendants_eq hlive, h.preceding_eq hc, hc, List.flatMap_append, List.flatMap_cons,
    h.distinct.descendants_eq hx, List.cons_append]

/-- **The nodes below a live node are its tree in pre-order.** -/
theorem traverses_descendants (hr : s.Live r) : s.Traverses r (s.descendants r) where
  nodup := h.distinct.nodup_descendants r
  mem_iff x := by rw [h.mem_descendants_iff, isInclusiveAncestor, List.contains_iff_mem]
  parent x hx hne := by
    obtain ⟨p, hp, hmem⟩ := h.parent?_of_mem_descendants hx hne
    obtain ⟨back, hback⟩ := h.exists_around hp
    refine ⟨p, hp, List.Sublist.trans ?_ (h.distinct.descendants_sublist hmem)⟩
    rw [hback, List.cons_sublist_cons, List.singleton_sublist]
    simp
  siblings x hx hne a ha y hy := by
    obtain ⟨p, hp, hmem⟩ := h.parent?_of_mem_descendants hx hne
    obtain ⟨back, hback⟩ := h.exists_around hp
    refine List.Sublist.trans ?_ (h.distinct.descendants_sublist hmem)
    rw [hback]
    have hfront : y ∈ (s.preceding x).flatMap s.descendants := by
      refine List.mem_flatMap.mpr ⟨a, ha, h.mem_descendants_iff.mpr ?_⟩
      rwa [isInclusiveAncestor, List.contains_iff_mem] at hy
    have hxs : [x].Sublist (x :: back) := List.singleton_sublist.mpr List.mem_cons_self
    exact ((List.singleton_sublist.mpr hfront).append hxs).cons p
  listing := h.listing_descendants hr

end WellFormed

/-! ## Walks -/

theorem Climbs.unique {o' : Option NodeRef} (hc : s.Climbs root r o) (hc' : s.Climbs root r o') : o = o' := by
  induction hc with
  | stop hr =>
    cases hc' with
    | stop hr' => exact Sum.inr.inj (hr.symm.trans hr')
    | up hr' _ => cases hr.symm.trans hr'
  | up hr _ ih =>
    cases hc' with
    | stop hr' => cases hr.symm.trans hr'
    | up hr' hp' => exact ih (Sum.inl.inj (hr.symm.trans hr') ▸ hp')

theorem Onward.unique {o' : Option NodeRef} (hn : s.Onward root r o) (hn' : s.Onward root r o') : o = o' := by
  cases hn with
  | down hc =>
    cases hn' with
    | down hc' => exact hc.symm.trans hc'
    | climb hc' _ => cases hc.symm.trans hc'
  | climb hc hr =>
    cases hn' with
    | down hc' => cases hc.symm.trans hc'
    | climb _ hr' => exact hr.unique hr'

/-- **A walk passes the same nodes each time.** -/
theorem WalksFrom.unique {l' : List NodeRef} (hw : s.WalksFrom root o l) (hw' : s.WalksFrom root o l') : l = l' := by
  induction hw generalizing l' with
  | done =>
    cases hw'
    rfl
  | gone hr =>
    cases hw' with
    | gone _ => rfl
    | pass hr' _ _ => simp [Option.isNone_iff_eq_none.mp hr] at hr'
  | pass hr hn _ ih =>
    cases hw' with
    | gone hr' => simp [Option.isNone_iff_eq_none.mp hr'] at hr
    | pass _ hn' hw' => rw [ih (hn.unique hn' ▸ hw')]

/-- The climb from a node that has no sibling behind it goes on from the parent. -/
theorem Climbs.of_parent? (hr : r ≠ root) (hl : s.Live r) (hp : s.parent? r = some p) (hc : s.Climbs root p o) :
    s.Climbs root r ((s.nextSibling? r).or o) := by
  have hlive : (s.get? r).isNone = false := by
    rw [Option.isNone_eq_false_iff]
    exact get?_isSome_iff.mpr hl
  cases hn : s.nextSibling? r with
  | none => exact .up (by simp [climbRound, hr, hlive, hn, hp]) hc
  | some next => exact .stop (by simp [climbRound, hr, hlive, hn])

/-- The climb ends at the node that the walk started from. -/
theorem climbs_root (s : Store) (root : NodeRef) : s.Climbs root root none :=
  .stop (if_pos rfl)

theorem Onward.of_climbs (hc : s.Climbs root r o) : s.Onward root r ((s.firstChild? r).or o) := by
  cases hf : s.firstChild? r with
  | none => exact .climb hf hc
  | some child => exact .down hf

namespace WellFormed

variable (h : s.WellFormed)
include h

/-- **A walk passes the trees of a row one after the other, and goes on where the climb from their parent leads.** -/
theorem walksFrom_row (hk : ∀ v ∈ k.trees, v ∈ s.forest.trees)
    (hq : ∃ front, s.children q = front ++ k.roots.map (·.ref)) (hroot : root ∉ k.toList.map (·.ref))
    (hc : s.Climbs root q o) (hw : s.WalksFrom root o rest) :
    s.WalksFrom root ((k.roots.head?.map (·.ref)).or o) (k.toList.map (·.ref) ++ rest) := by
  induction k generalizing q o rest with
  | nil => exact hw
  | node m j l ihj ihl =>
    obtain ⟨front, hfront⟩ := hq
    rw [Forest.toList_node, List.map_cons, List.map_append, List.mem_cons, List.mem_append, not_or, not_or] at hroot
    obtain ⟨hm, hj, hl⟩ := hroot
    have ht := h.tree?_eq_some (hk (m, j) List.mem_cons_self)
    have hchildren := children_of_tree? ht
    have hfront' : s.children q = front ++ m.ref :: l.roots.map (·.ref) := hfront
    have hp : s.parent? m.ref = some q := h.parent?_eq_some_iff.mpr (by simp [hfront'])
    -- What is behind the first tree, and where the climb from its top leads.
    have hbehind := ihl (fun v hv => hk v (List.mem_cons_of_mem _ (List.mem_append_right _ hv)))
      ⟨front ++ [m.ref], by rw [hfront', List.append_assoc, List.singleton_append]⟩ hl hc hw
    have hnext : s.nextSibling? m.ref = l.roots.head?.map (·.ref) := by
      rw [nextSibling?, h.following_eq hfront', List.head?_map]
    have hclimb := hc.of_parent? (Ne.symm hm) (live_of_tree? ht) hp
    rw [hnext] at hclimb
    -- The first tree: its top, and what is below.
    have hbelow := ihj (fun v hv => hk v (List.mem_cons_of_mem _ (List.mem_append_left _ hv)))
      ⟨[], hchildren⟩ hj hclimb hbehind
    have honward := Onward.of_climbs hclimb
    have hfirst : s.firstChild? m.ref = j.roots.head?.map (·.ref) := by rw [firstChild?, hchildren, List.head?_map]
    rw [hfirst] at honward
    rw [Forest.toList_node, List.map_cons, List.map_append, List.cons_append, List.append_assoc]
    exact .pass (get?_isSome_iff.mpr (live_of_tree? ht)) honward hbelow

/-- The walk from a node ends, and passes the nodes below it. -/
theorem walks_descendants (r : NodeRef) : s.Walks r (s.descendants r) := by
  cases ht : s.tree? r with
  | none =>
    have hdead : ¬ (s.get? r).isSome := by simp [get?, ht]
    rw [Walks, if_neg hdead, descendants, ht]
    exact .done
  | some t =>
    obtain ⟨n, k⟩ := t
    obtain ⟨htree, rfl⟩ := mem_trees_of_tree? ht
    have hlive := get?_isSome_iff.mpr (live_of_tree? ht)
    have hnodup := h.distinct.nodup_descendants n.ref
    rw [descendants_of_tree? ht, Forest.labels_mk, List.map_cons] at hnodup ⊢
    have hchildren := children_of_tree? ht
    have hbelow := h.walksFrom_row (fun v hv => Forest.mem_trees_of_mem_below htree hv) ⟨[], hchildren⟩
      (List.nodup_cons.mp hnodup).1 (s.climbs_root n.ref) .done
    have honward := Onward.of_climbs (s.climbs_root n.ref)
    rw [firstChild?, hchildren, List.head?_map] at honward
    rw [List.append_nil] at hbelow
    rw [Walks, if_pos hlive]
    exact .pass hlive honward hbelow

/-- **A walk ends, and it passes the same nodes each time. These are all that is at or below a live node, in
pre-order, and none when the node is not live.** -/
theorem walk_traverses (r : NodeRef) : ∃ l, (∀ l', s.Walks r l' ↔ l' = l) ∧ s.descendants r = l ∧
    (s.Live r → s.Traverses r l) ∧ (¬ s.Live r → l = []) := by
  have hwalks := h.walks_descendants r
  refine ⟨_, fun l' => ⟨fun hw => hw.unique hwalks, fun heq => heq ▸ hwalks⟩, rfl,
    fun hr => h.traverses_descendants hr, fun hr => ?_⟩
  rw [List.eq_nil_iff_forall_not_mem]
  intro x hx
  exact hr (live_of_mem_ancestors (h.mem_descendants_iff.mp hx))

end WellFormed

/-- An element with a sibling on either side: the walk from it stays among the four nodes of its tree, and the
reference to a freed node leads nowhere. -/
theorem exists_walk_traverses : ∃ s : Store, s.WellFormed ∧
    (∃ l, (∀ l', s.Walks (.cell 2 0) l' ↔ l' = l) ∧ s.descendants (.cell 2 0) = l ∧ s.Live (.cell 2 0) ∧
      s.Traverses (.cell 2 0) l ∧ l = [.cell 2 0, .cell 4 0, .cell 5 0, .cell 6 0] ∧
      s.nextSibling? (.cell 2 0) = some (.cell 3 0) ∧ s.previousSibling? (.cell 2 0) = some (.cell 1 0)) ∧
    ¬ s.Live (.cell 7 0) ∧ ∀ l', s.Walks (.cell 7 0) l' ↔ l' = [] := by
  obtain ⟨s, h, hl, hd, hnext, hprevious, hgone⟩ : ∃ s : Store, s.WellFormed ∧ s.Live (.cell 2 0) ∧
      s.descendants (.cell 2 0) = [.cell 2 0, .cell 4 0, .cell 5 0, .cell 6 0] ∧
      s.nextSibling? (.cell 2 0) = some (.cell 3 0) ∧ s.previousSibling? (.cell 2 0) = some (.cell 1 0) ∧
      ¬ s.Live (.cell 7 0) :=
    ⟨_, wellFormed_new.foldl_apply [.createElement "a", .createElement "b", .createElement "i", .createElement "s",
      .createText "x", .createText "y", .createComment "z", .appendChild (.cell 4 0) (.cell 5 0),
      .appendChild (.cell 2 0) (.cell 4 0), .appendChild (.cell 2 0) (.cell 6 0), .appendChild .root (.cell 1 0),
      .appendChild .root (.cell 2 0), .appendChild .root (.cell 3 0), .freeSubtree (.cell 7 0)],
      by decide +kernel, by decide +kernel, by decide +kernel, by decide +kernel, by decide +kernel⟩
  obtain ⟨l, hwalk, hlist, htraverses, -⟩ := h.walk_traverses (.cell 2 0)
  obtain ⟨l', hwalk', -, -, hnil⟩ := h.walk_traverses (.cell 7 0)
  exact ⟨s, h, ⟨l, hwalk, hlist, hl, htraverses hl, hlist.symm.trans hd, hnext, hprevious⟩, hgone,
    hnil hgone ▸ hwalk'⟩

end Store

end DomHost
