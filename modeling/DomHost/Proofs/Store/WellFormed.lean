import DomHost.Proofs.Forest.Paths
import DomHost.Store.Basic
import Mathlib.Data.List.Lattice
import Mathlib.Data.List.Nodup
import Mathlib.Data.List.Range

/-!
# Well-formed stores

A store is well formed when its cells are divided between the nodes of the forest and the free list,
only elements and the document have children, and the document is at the top under its own reference
and nowhere else.

* `Cells.Hold`: the cells in use are those of given references, and all others are free;
* `Cells.Hold.draw`, `Cells.Hold.release`: drawing and releasing a cell;
* `Store.Live`, `Store.Distinct`: live nodes, and stores in which a reference names one node;
* **`Store.Distinct.mem_descendants_iff`**: a node is below those that its way up leads through;
* `Store.Distinct.descendants_eq`: the nodes below a node, in pre-order;
* `Store.WellFormed`: well-formed stores;
* **`Store.WellFormed.parent?_eq_some_iff`**: parents are what children say.
-/

namespace DomHost

/-! ## Cells -/

namespace Cells

/-- The reference that a cell answers to. -/
def current (c : Cells) (i : Nat) : NodeRef := .cell i (c.generations.getD i 0)

/-- The references name cells in their current generations, and the cells that none of them names are
free; each cell comes once. -/
def Hold (c : Cells) (refs : List NodeRef) : Prop :=
  ∃ used : List Nat, refs.Perm (used.map c.current) ∧
    (used ++ c.free).Perm (List.range c.generations.size)

variable {c : Cells} {refs : List NodeRef}

theorem current_injective (c : Cells) : Function.Injective c.current := by
  intro i j h
  simp only [current, NodeRef.cell.injEq] at h
  exact h.1

theorem Hold.perm (h : c.Hold refs) {refs' : List NodeRef} (hp : refs'.Perm refs) :
    c.Hold refs' := by
  obtain ⟨used, hu, hr⟩ := h
  exact ⟨used, hp.trans hu, hr⟩

theorem Hold.nodup (h : c.Hold refs) : refs.Nodup := by
  obtain ⟨used, hu, hr⟩ := h
  have hn : (used ++ c.free).Nodup := hr.nodup_iff.mpr List.nodup_range
  exact hu.nodup_iff.mpr ((List.nodup_append.mp hn).1.map c.current_injective)

theorem Hold.free_nodup (h : c.Hold refs) : c.free.Nodup := by
  obtain ⟨used, -, hr⟩ := h
  exact (List.nodup_append.mp (hr.nodup_iff.mpr List.nodup_range)).2.1

theorem Hold.eq_current (h : c.Hold refs) {i : Nat} {g : UInt32} (hr : NodeRef.cell i g ∈ refs) :
    NodeRef.cell i g = c.current i ∧ i < c.generations.size ∧ i ∉ c.free := by
  obtain ⟨used, hu, hp⟩ := h
  obtain ⟨j, hj, he⟩ := List.mem_map.mp (hu.mem_iff.mp hr)
  obtain ⟨rfl, -⟩ := NodeRef.cell.inj he
  have hn : (used ++ c.free).Nodup := hp.nodup_iff.mpr List.nodup_range
  refine ⟨he.symm, List.mem_range.mp (hp.mem_iff.mp (List.mem_append_left _ hj)), fun hf => ?_⟩
  exact (List.nodup_append.mp hn).2.2 j hj j hf rfl

theorem Hold.nowhere_notMem (h : c.Hold refs) : NodeRef.nowhere ∉ refs := by
  obtain ⟨used, hu, -⟩ := h
  intro hm
  obtain ⟨i, -, hi⟩ := List.mem_map.mp (hu.mem_iff.mp hm)
  exact NodeRef.noConfusion hi

/-- The free cells are those of which no reference is held. -/
theorem Hold.mem_free (h : c.Hold refs) {i : Nat} :
    i ∈ c.free ↔ i < c.generations.size ∧ ∀ g, NodeRef.cell i g ∉ refs := by
  have hh := h
  obtain ⟨used, hu, hp⟩ := h
  constructor
  · intro hf
    exact ⟨List.mem_range.mp (hp.mem_iff.mp (List.mem_append_right _ hf)),
      fun g hg => (hh.eq_current hg).2.2 hf⟩
  · rintro ⟨hi, hg⟩
    rcases List.mem_append.mp (hp.mem_iff.mpr (List.mem_range.mpr hi)) with hm | hm
    · exact absurd (hu.mem_iff.mpr (List.mem_map_of_mem hm)) (hg _)
    · exact hm

theorem Hold.length (h : c.Hold refs) : refs.length = c.generations.size - c.free.length := by
  obtain ⟨used, hu, hp⟩ := h
  have h1 := hu.length_eq
  have h2 := hp.length_eq
  rw [List.length_map] at h1
  rw [List.length_append, List.length_range] at h2
  omega

/-- **A cell is drawn that no reference names.** -/
theorem Hold.draw (h : c.Hold refs) : c.draw.2.Hold (c.draw.1 :: refs) := by
  obtain ⟨used, hu, hp⟩ := h
  unfold Cells.draw
  split
  · rename_i i rest hf
    rw [hf] at hp
    exact ⟨i :: used, hu.cons _, List.perm_middle.symm.trans hp⟩
  · rename_i hf
    rw [hf, List.append_nil] at hp
    refine ⟨c.generations.size :: used, ?_, ?_⟩
    · rw [List.map_cons]
      have hmap : used.map (current { c with generations := c.generations.push 0 }) =
          used.map c.current := by
        refine List.map_congr_left fun i hi => ?_
        have hi : i < c.generations.size := List.mem_range.mp (hp.mem_iff.mp hi)
        simp [current, Array.getElem?_push, Nat.ne_of_lt hi]
      have hnew : current { c with generations := c.generations.push 0 } c.generations.size =
          .cell c.generations.size 0 := by simp [current]
      rw [hmap, hnew]
      exact hu.cons _
    · rw [hf, List.append_nil, Array.size_push, List.range_succ]
      exact (hp.cons _).trans (List.perm_append_singleton _ _).symm

/-- A released cell is free, and the others answer as before. -/
theorem Hold.release {r : NodeRef} (h : c.Hold (r :: refs)) : (c.release r).Hold refs := by
  have hn := List.nodup_cons.mp h.nodup
  cases r with
  | nowhere => exact absurd List.mem_cons_self h.nowhere_notMem
  | cell i g =>
    have hi := (h.eq_current List.mem_cons_self).1
    obtain ⟨used, hu, hp⟩ := h
    have hmem : i ∈ used := by
      obtain ⟨j, hj, he⟩ := List.mem_map.mp (hu.mem_iff.mp List.mem_cons_self)
      obtain ⟨rfl, -⟩ := NodeRef.cell.inj he
      exact hj
    have hperm := List.perm_cons_erase hmem
    have hused : used.Nodup :=
      (List.nodup_append.mp (hp.nodup_iff.mpr List.nodup_range)).1
    refine ⟨used.erase i, ?_, ?_⟩
    · have hmap : (used.erase i).map (c.release (.cell i g)).current =
          (used.erase i).map c.current := by
        refine List.map_congr_left fun j hj => ?_
        have hne : i ≠ j := fun he => by
          subst he
          exact (List.Nodup.not_mem_erase hused) hj
        simp [current, Cells.release, Array.getElem?_modify, hne]
      rw [hmap]
      have := hu.trans (hperm.map c.current)
      rw [List.map_cons, ← hi] at this
      exact this.cons_inv
    · simp only [Cells.release, Array.size_modify]
      exact List.perm_middle.trans ((hperm.append_right c.free).symm.trans hp)

theorem Hold.releaseAll {rs : List NodeRef} (h : c.Hold (rs ++ refs)) :
    (rs.foldl Cells.release c).Hold refs := by
  induction rs generalizing c with
  | nil => exact h
  | cons r rs ih => exact ih h.release

end Cells

namespace Store

/-! ## Live nodes -/

/-- The references of all nodes. -/
def refs (s : Store) : List NodeRef := s.forest.toList.map (·.ref)

/-- Is there a node with the reference? -/
def Live (s : Store) (r : NodeRef) : Prop := r ∈ s.refs

instance (s : Store) (r : NodeRef) : Decidable (s.Live r) := inferInstanceAs (Decidable (r ∈ s.refs))

variable {s : Store} {r : NodeRef}

theorem is_iff {n : Node} : is r n = true ↔ n.ref = r := by simp [is]

theorem tree?_isSome_iff : (s.tree? r).isSome ↔ s.Live r := by
  rw [← not_iff_not, Bool.not_eq_true, Option.isSome_eq_false_iff, Option.isNone_iff_eq_none,
    tree?, Forest.find?_eq_none]
  simp [is_iff, Live, refs]

theorem get?_isSome_iff : (s.get? r).isSome ↔ s.Live r := by
  rw [get?, Option.isSome_map, tree?_isSome_iff]

theorem exists_tree? (h : s.Live r) : ∃ n c, s.tree? r = some (n, c) := by
  obtain ⟨⟨n, c⟩, ht⟩ := Option.isSome_iff_exists.mp (tree?_isSome_iff.mpr h)
  exact ⟨n, c, ht⟩

theorem mem_trees_of_tree? {t : Node × Forest Node} (h : s.tree? r = some t) :
    t ∈ s.forest.trees ∧ t.1.ref = r := by
  obtain ⟨ht, hr⟩ := Forest.mem_trees_of_find? h
  exact ⟨ht, is_iff.mp hr⟩

theorem live_of_tree? {t : Node × Forest Node} (h : s.tree? r = some t) : s.Live r :=
  tree?_isSome_iff.mp (by rw [h]; rfl)

theorem children_of_tree? {n : Node} {c : Forest Node} (h : s.tree? r = some (n, c)) :
    s.children r = c.roots.map (·.ref) := by rw [children, h]

theorem descendants_of_tree? {t : Node × Forest Node} (h : s.tree? r = some t) :
    s.descendants r = (Forest.labels t).map (·.ref) := by
  rw [descendants, h]
  rfl

theorem live_of_mem_descendants {p : NodeRef} (hr : r ∈ s.descendants p) : s.Live r := by
  cases ht : s.tree? p with
  | none => simp [descendants, ht] at hr
  | some t =>
    rw [descendants_of_tree? ht] at hr
    obtain ⟨n, hn, rfl⟩ := List.mem_map.mp hr
    exact List.mem_map_of_mem (Forest.mem_toList_of_mem_labels (mem_trees_of_tree? ht).1 hn)

theorem mem_children {p : NodeRef} (hr : r ∈ s.children p) :
    ∃ t ∈ s.forest.trees, t.1.ref = p ∧ ∃ n ∈ t.2.roots, n.ref = r ∧ n ∈ s.forest.toList := by
  cases ht : s.tree? p with
  | none => simp [children, ht] at hr
  | some t =>
    rw [children_of_tree? ht] at hr
    obtain ⟨n, hn, rfl⟩ := List.mem_map.mp hr
    obtain ⟨hm, hp⟩ := mem_trees_of_tree? ht
    refine ⟨t, hm, hp, n, hn, rfl, ?_⟩
    exact (Forest.perm_roots_trees s.forest).mem_iff.mpr
      (List.mem_append_right _ (List.mem_flatMap.mpr ⟨t, hm, hn⟩))

theorem live_of_child (hr : r ∈ s.children p) : s.Live p ∧ s.Live r := by
  obtain ⟨t, ht, rfl, n, hn, rfl, hl⟩ := mem_children hr
  exact ⟨List.mem_map_of_mem (Forest.mem_toList_of_mem_trees ht), List.mem_map_of_mem hl⟩

/-- The way up from a live node. -/
theorem exists_climb (hr : s.Live r) :
    ∃ n path, s.forest.Climbs (n :: path) ∧ n.ref = r ∧
      s.ancestors r = r :: path.map (·.ref) := by
  obtain ⟨n, hn, rfl⟩ := List.mem_map.mp hr
  cases hp : s.forest.pathTo? (is n.ref) [] with
  | none => exact absurd (is_iff.mpr rfl) (Forest.pathTo?_eq_none.mp hp n hn)
  | some path =>
    obtain ⟨hc, m, rest, rfl, hm⟩ := Forest.climbs_of_pathTo? hp
    exact ⟨m, rest, hc, is_iff.mp hm, by simp [ancestors, hp, is_iff.mp hm]⟩

theorem ancestors_eq_nil (hr : ¬ s.Live r) : s.ancestors r = [] := by
  have : s.forest.pathTo? (is r) [] = none := by
    rw [Forest.pathTo?_eq_none]
    intro n hn he
    exact hr (List.mem_map.mpr ⟨n, hn, is_iff.mp he⟩)
  rw [ancestors, this]

theorem live_of_mem_ancestors {a : NodeRef} (ha : a ∈ s.ancestors r) : s.Live a := by
  by_cases hr : s.Live r
  · obtain ⟨n, path, hc, rfl, he⟩ := exists_climb hr
    rw [he, ← List.map_cons (f := fun n : Node => n.ref)] at ha
    obtain ⟨m, hm, rfl⟩ := List.mem_map.mp ha
    exact List.mem_map_of_mem (hc.mem_toList m hm)
  · rw [ancestors_eq_nil hr] at ha
    exact absurd ha (by simp)

theorem exists_tree?_of_get? {d : NodeData} (h : s.get? r = some d) :
    ∃ c, s.tree? r = some (⟨r, d⟩, c) := by
  obtain ⟨⟨n, c⟩, ht, rfl⟩ := Option.map_eq_some_iff.mp h
  obtain ⟨-, rfl⟩ := mem_trees_of_tree? ht
  exact ⟨c, ht⟩

/-! ## References that name one node -/

/-- Each reference names one node. -/
def Distinct (s : Store) : Prop := s.refs.Nodup

namespace Distinct

/-- A reference names one node. -/
theorem node_eq (h : s.Distinct) {m n : Node} (hm : m ∈ s.forest.toList)
    (hn : n ∈ s.forest.toList) (he : m.ref = n.ref) : m = n :=
  List.inj_on_of_nodup_map h hm hn he

/-- A reference names one tree. -/
theorem tree_eq (h : s.Distinct) {t u : Node × Forest Node} (ht : t ∈ s.forest.trees)
    (hu : u ∈ s.forest.trees) (he : t.1.ref = u.1.ref) : t = u := by
  have hn : (s.forest.trees.map fun t => t.1.ref).Nodup := by
    have hd : s.refs.Nodup := h
    rwa [refs, Forest.toList_eq_map_trees, List.map_map] at hd
  exact List.inj_on_of_nodup_map hn ht hu he

theorem countP_le_one (h : s.Distinct) (r : NodeRef) : s.forest.toList.countP (is r) ≤ 1 := by
  have hc : s.forest.toList.countP (is r) = s.refs.count r := by
    rw [refs, List.count, List.countP_map]
    rfl
  rw [hc]
  exact List.nodup_iff_count_le_one.mp h r

theorem tree?_eq_some (h : s.Distinct) {t : Node × Forest Node} (ht : t ∈ s.forest.trees) :
    s.tree? t.1.ref = some t := by
  obtain ⟨n, c, hc⟩ := exists_tree? (s := s) (r := t.1.ref)
    (List.mem_map_of_mem (Forest.mem_toList_of_mem_trees ht))
  obtain ⟨hm, hr⟩ := mem_trees_of_tree? hc
  rw [hc, h.tree_eq hm ht hr]

theorem get?_eq_some_iff (h : s.Distinct) {d : NodeData} :
    s.get? r = some d ↔ ⟨r, d⟩ ∈ s.forest.toList := by
  constructor
  · intro hd
    obtain ⟨c, ht⟩ := exists_tree?_of_get? hd
    exact Forest.mem_toList_of_mem_trees (mem_trees_of_tree? ht).1
  · intro hm
    obtain ⟨n, c, ht⟩ := exists_tree? (List.mem_map_of_mem hm)
    obtain ⟨htr, hr⟩ := mem_trees_of_tree? ht
    obtain rfl := h.node_eq (Forest.mem_toList_of_mem_trees htr) hm hr
    rw [get?, ht]
    rfl

/-- **The way up from a node leads through every node it is at or below.** -/
theorem mem_ancestors (h : s.Distinct) {a : NodeRef} (hr : r ∈ s.descendants a) :
    a ∈ s.ancestors r := by
  cases ht : s.tree? a with
  | none => simp [descendants, ht] at hr
  | some t =>
    rw [descendants_of_tree? ht] at hr
    obtain ⟨n, hn, rfl⟩ := List.mem_map.mp hr
    obtain ⟨hm, rfl⟩ := mem_trees_of_tree? ht
    cases hp : s.forest.pathTo? (is n.ref) [] with
    | none =>
      exact absurd (is_iff.mpr rfl)
        (Forest.pathTo?_eq_none.mp hp n (Forest.mem_toList_of_mem_labels hm hn))
    | some path =>
      rw [ancestors, hp]
      exact List.mem_map_of_mem
        (Forest.mem_pathTo? (h.countP_le_one _) ht hn (is_iff.mpr rfl) hp)

/-- **A node is below those that its way up leads through.** -/
theorem mem_descendants_iff (h : s.Distinct) {a : NodeRef} : r ∈ s.descendants a ↔ a ∈ s.ancestors r := by
  refine ⟨h.mem_ancestors, fun ha => ?_⟩
  unfold ancestors at ha
  split at ha
  · rename_i path hpath
    obtain ⟨n, hn, rfl⟩ := List.mem_map.mp ha
    obtain hm | ⟨t, ht, rfl, m, hm, hmr⟩ := Forest.exists_tree_of_mem_pathTo? hpath hn
    · exact absurd hm (by simp)
    · rw [descendants_of_tree? (h.tree?_eq_some ht)]
      exact List.mem_map.mpr ⟨m, hm, is_iff.mp hmr⟩
  · exact absurd ha (by simp)

/-- A node is followed by its children, each with what is below it. -/
theorem descendants_eq (h : s.Distinct) (hr : s.Live r) :
    s.descendants r = r :: (s.children r).flatMap s.descendants := by
  obtain ⟨n, c, ht⟩ := exists_tree? hr
  obtain ⟨hm, rfl⟩ := mem_trees_of_tree? ht
  rw [descendants_of_tree? ht, children_of_tree? ht, Forest.labels_mk, List.map_cons,
    Forest.toList_eq_flatMap_tops, Forest.roots_eq_map_tops, List.map_flatMap, List.map_map,
    List.flatMap_map]
  refine congrArg _ (List.flatMap_congr fun t htop => ?_)
  have htree := Forest.mem_trees_of_mem_below hm (Forest.mem_trees_of_mem_tops htop)
  exact (descendants_of_tree? (h.tree?_eq_some htree)).symm

theorem nodup_ancestors (h : s.Distinct) (r : NodeRef) : (s.ancestors r).Nodup := by
  unfold ancestors
  split
  · rename_i path hpath
    have hs := (Forest.reverse_sublist_of_pathTo? hpath).map Node.ref
    rw [List.reverse_nil, List.nil_append, List.map_reverse] at hs
    exact List.nodup_reverse.mp (List.Nodup.sublist hs h)
  · exact List.nodup_nil

end Distinct

/-! ## Well-formed stores -/

/-- A well-formed store. -/
structure WellFormed (s : Store) : Prop where
  cells : s.cells.Hold s.refs
  bears : s.forest.BearsOnly fun n => n.data.isContainer = true
  document : ⟨.root, .document⟩ ∈ s.forest.roots
  onlyDocument : ∀ n ∈ s.forest.toList, n.data.isDocument = true → n.ref = .root

theorem wellFormed_new : Store.new.WellFormed where
  cells := ⟨[0], by decide, by decide⟩
  bears := ⟨fun _ => rfl, trivial, trivial⟩
  document := List.mem_cons_self
  onlyDocument := by
    intro n hn _
    rw [List.mem_singleton.mp hn]

namespace WellFormed

theorem nodup (h : s.WellFormed) : s.refs.Nodup := h.cells.nodup

theorem distinct (h : s.WellFormed) : s.Distinct := h.nodup

theorem node_eq (h : s.WellFormed) {m n : Node} (hm : m ∈ s.forest.toList)
    (hn : n ∈ s.forest.toList) (he : m.ref = n.ref) : m = n := h.distinct.node_eq hm hn he

theorem tree_eq (h : s.WellFormed) {t u : Node × Forest Node} (ht : t ∈ s.forest.trees)
    (hu : u ∈ s.forest.trees) (he : t.1.ref = u.1.ref) : t = u := h.distinct.tree_eq ht hu he

theorem countP_le_one (h : s.WellFormed) (r : NodeRef) : s.forest.toList.countP (is r) ≤ 1 :=
  h.distinct.countP_le_one r

theorem tree?_eq_some (h : s.WellFormed) {t : Node × Forest Node} (ht : t ∈ s.forest.trees) :
    s.tree? t.1.ref = some t := h.distinct.tree?_eq_some ht

theorem get?_eq_some_iff (h : s.WellFormed) {d : NodeData} :
    s.get? r = some d ↔ ⟨r, d⟩ ∈ s.forest.toList := h.distinct.get?_eq_some_iff

theorem live_root (h : s.WellFormed) : s.Live .root :=
  List.mem_map.mpr ⟨_, Forest.mem_toList_of_mem_roots h.document, rfl⟩

/-- Each node is at the top or a child, once. -/
theorem nodup_roots_children (h : s.WellFormed) :
    ((s.forest.roots ++ s.forest.trees.flatMap (·.2.roots)).map (·.ref)).Nodup :=
  ((Forest.perm_roots_trees s.forest).map fun n : Node => n.ref).nodup_iff.mp h.nodup

theorem not_child_of_root (h : s.WellFormed) {m n : Node} {t : Node × Forest Node}
    (hm : m ∈ s.forest.roots) (ht : t ∈ s.forest.trees) (hn : n ∈ t.2.roots) :
    m.ref ≠ n.ref := by
  have hd := h.nodup_roots_children
  rw [List.map_append] at hd
  refine (List.nodup_append.mp hd).2.2 _ (List.mem_map_of_mem hm) _ (List.mem_map_of_mem ?_)
  exact List.mem_flatMap.mpr ⟨t, ht, hn⟩

theorem eq_of_common_child (h : s.WellFormed) {m n : Node} {t u : Node × Forest Node}
    (ht : t ∈ s.forest.trees) (hm : m ∈ t.2.roots) (hu : u ∈ s.forest.trees)
    (hn : n ∈ u.2.roots) (he : m.ref = n.ref) : t = u := by
  by_contra hne
  have hd := h.nodup_roots_children
  rw [List.map_append, List.map_flatMap] at hd
  have hp := (List.nodup_flatMap.mp (List.nodup_append.mp hd).2.1).2
  have : Std.Symm (Function.onFun List.Disjoint fun t : Node × Forest Node =>
      t.2.roots.map (·.ref)) := ⟨fun _ _ hd => List.Disjoint.symm hd⟩
  have hdis := hp.forall ht hu hne
  exact hdis (List.mem_map_of_mem hm) (he ▸ List.mem_map_of_mem hn)

theorem nodup_children (h : s.WellFormed) (r : NodeRef) : (s.children r).Nodup := by
  cases ht : s.tree? r with
  | none => simp [children, ht]
  | some t =>
    rw [children_of_tree? ht]
    have hd := h.nodup_roots_children
    rw [List.map_append, List.map_flatMap] at hd
    exact (List.nodup_flatMap.mp (List.nodup_append.mp hd).2.1).1 t (mem_trees_of_tree? ht).1

/-! ## Parents and ancestors -/

/-- **The parent of a node is the one that has it as a child.** -/
theorem parent?_eq_some_iff (h : s.WellFormed) {p : NodeRef} :
    s.parent? r = some p ↔ r ∈ s.children p := by
  constructor
  · intro hp
    by_cases hr : s.Live r
    · obtain ⟨n, path, hc, rfl, ha⟩ := exists_climb hr
      rw [parent?, ha] at hp
      cases hc with
      | top _ => simp at hp
      | up hb hn hc =>
        simp only [List.map_cons, List.getElem?_cons_succ, List.getElem?_cons_zero,
          Option.some.injEq] at hp
        rw [← hp, children_of_tree? (h.tree?_eq_some hb)]
        exact List.mem_map_of_mem hn
    · simp [parent?, ancestors_eq_nil hr] at hp
  · intro hr
    obtain ⟨t, ht, rfl, n, hn, rfl, hl⟩ := mem_children hr
    obtain ⟨m, path, hc, hm, ha⟩ := exists_climb (List.mem_map_of_mem hl)
    rw [parent?, ha]
    cases hc with
    | top hroot => exact absurd hm (h.not_child_of_root hroot ht hn)
    | up hb hmc hc =>
      have := h.eq_of_common_child hb hmc ht hn hm
      rw [← this]
      rfl

theorem parent?_root (h : s.WellFormed) {n : Node} (hn : n ∈ s.forest.roots) :
    s.parent? n.ref = none := by
  cases hp : s.parent? n.ref with
  | none => rfl
  | some p =>
    obtain ⟨t, ht, -, m, hm, he, -⟩ := mem_children (h.parent?_eq_some_iff.mp hp)
    exact absurd he.symm (h.not_child_of_root hn ht hm)

/-- A node without parent is at the top. -/
theorem mem_roots_of_parent? (h : s.WellFormed) {n : Node} (hn : n ∈ s.forest.toList)
    (hp : s.parent? n.ref = none) : n ∈ s.forest.roots := by
  rcases List.mem_append.mp ((Forest.perm_roots_trees s.forest).mem_iff.mp hn) with hm | hm
  · exact hm
  · obtain ⟨t, ht, hm⟩ := List.mem_flatMap.mp hm
    have : n.ref ∈ s.children t.1.ref := by
      rw [children_of_tree? (h.tree?_eq_some ht)]
      exact List.mem_map_of_mem hm
    rw [h.parent?_eq_some_iff.mpr this] at hp
    exact absurd hp (by simp)

theorem mem_ancestors (h : s.WellFormed) {a : NodeRef} (hr : r ∈ s.descendants a) :
    a ∈ s.ancestors r := h.distinct.mem_ancestors hr

theorem mem_descendants_iff (h : s.WellFormed) {a : NodeRef} :
    r ∈ s.descendants a ↔ a ∈ s.ancestors r := h.distinct.mem_descendants_iff

end WellFormed

end Store

end DomHost
