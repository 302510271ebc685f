import DomHost.Proofs.Store.Contents
import DomHost.Proofs.Store.Links

/-!
# Accounts of references

The references that a store has handed out are those of its live nodes and those that it has taken back. A
cell is in the generation that counts how often it was taken back, so as long as the count does not wrap
around no reference is handed out twice.

* `Cells.Accounts`: the accounts of cells;
* `Cells.Accounts.extend`, `Cells.Accounts.releaseAll`: handing out and taking back;
* **`Cells.Accounts.nodup`**: no reference is handed out twice;
* `Store.Retains`, `Store.retains_insertBefore` and others: operations that only move nodes;
* `Store.tree?_scatter`, `Store.place_create`: a new node in the place of the children of another.
-/

namespace DomHost

/-! ## Cells -/

namespace Cells

/-- Does a reference name a cell? -/
def names (i : Nat) : NodeRef → Bool
  | .nowhere => false
  | .cell j _ => j == i

/-- The references that a cell had before it was taken back, one for each time. -/
def past (i n : Nat) : List NodeRef := (List.range n).map fun m => .cell i (UInt32.ofNat m)

/-- The references of live nodes, those that were handed out and those that were taken back. -/
structure Accounts (c : Cells) (live issued freed : List NodeRef) : Prop where
  hold : c.Hold live
  balance : issued.Perm (live ++ freed)
  turns : ∀ i, freed.filter (names i) = past i (freed.countP (names i))
  generation : ∀ i, c.generations.getD i 0 = UInt32.ofNat (freed.countP (names i))
  somewhere : NodeRef.nowhere ∉ freed

variable {c c' : Cells} {live live' issued freed rs : List NodeRef} {r : NodeRef} {i : Nat} {g : UInt32}

/-! ### Generations -/

theorem generation_draw (c : Cells) (i : Nat) :
    c.draw.2.generations.getD i 0 = c.generations.getD i 0 := by
  unfold draw
  split
  · rfl
  · rw [Array.getD_eq_getD_getElem?, Array.getD_eq_getD_getElem?, Array.getElem?_push]
    split_ifs with hi
    · rw [hi, Array.getElem?_size]
      rfl
    · rfl

theorem generation_rename (f : Forest NodeData) (c : Cells) (i : Nat) :
    (f.rename Store.embody c).2.generations.getD i 0 = c.generations.getD i 0 := by
  induction f generalizing c with
  | nil => rfl
  | node d k n ihk ihn => exact (ihn _).trans ((ihk _).trans (generation_draw c i))

theorem generation_release (h : i < c.generations.size) (g : UInt32) (j : Nat) :
    (c.release (.cell i g)).generations.getD j 0 =
      if i = j then c.generations.getD j 0 + 1 else c.generations.getD j 0 := by
  rw [release, Array.getD_eq_getD_getElem?, Array.getD_eq_getD_getElem?, Array.getElem?_modify]
  split_ifs with hj
  · subst hj
    rw [Array.getElem?_eq_getElem h]
    rfl
  · rfl

/-! ### Handing out and taking back -/

namespace Accounts

theorem perm (h : c.Accounts live issued freed) (hp : live'.Perm live) :
    c.Accounts live' issued freed :=
  { h with hold := h.hold.perm hp, balance := h.balance.trans (hp.symm.append_right freed) }

/-- Handing out references, none of which was handed out to a live node. -/
theorem extend (h : c.Accounts live issued freed) (hold : c'.Hold (rs ++ live))
    (hgen : ∀ i, c'.generations.getD i 0 = c.generations.getD i 0) :
    c'.Accounts (rs ++ live) (issued ++ rs) freed :=
  { h with
    hold
    balance := List.perm_append_comm.trans
      ((h.balance.append_left rs).trans (List.append_assoc rs live freed ▸ List.Perm.refl _))
    generation := fun i => (hgen i).trans (h.generation i) }

/-- Taking back the reference of a live node. -/
theorem release (h : c.Accounts (r :: live) issued freed) :
    (c.release r).Accounts live issued (freed ++ [r]) := by
  cases r with
  | nowhere => exact absurd List.mem_cons_self h.hold.nowhere_notMem
  | cell i g =>
    obtain ⟨hcurrent, hi, -⟩ := h.hold.eq_current List.mem_cons_self
    have hg : g = UInt32.ofNat (freed.countP (names i)) :=
      (NodeRef.cell.inj hcurrent).2.trans (h.generation i)
    have hcount : ∀ j, (freed ++ [NodeRef.cell i g]).countP (names j) =
        freed.countP (names j) + if i = j then 1 else 0 := by
      intro j
      rw [List.countP_append, List.countP_singleton]
      simp [names]
    refine ⟨h.hold.release, ?_, fun j => ?_, fun j => ?_, ?_⟩
    · refine h.balance.trans (List.perm_middle.symm.trans ?_)
      have hcomm : ([NodeRef.cell i g] ++ freed).Perm (freed ++ [.cell i g]) := List.perm_append_comm
      exact hcomm.append_left live
    · rw [hcount, List.filter_append, h.turns j]
      split_ifs with hj
      · subst hj
        rw [past, past, List.range_succ, List.map_append, hg]
        simp [names]
      · simp [names, hj]
    · rw [hcount, generation_release hi, h.generation j]
      split_ifs
      · exact (UInt32.ofNat_add _ 1).symm
      · rfl
    · simp [h.somewhere]

theorem releaseAll (h : c.Accounts (rs ++ live) issued freed) :
    (rs.foldl Cells.release c).Accounts live issued (freed ++ rs) := by
  induction rs generalizing c freed with
  | nil => rwa [List.append_nil]
  | cons r rs ih =>
    rw [← List.singleton_append, ← List.append_assoc]
    exact ih h.release

/-! ### No reference twice -/

theorem nodup_past {n : Nat} (hn : n ≤ 2 ^ 32) : (past i n).Nodup := by
  refine List.Nodup.map_on ?_ List.nodup_range
  intro m hm k hk he
  rw [List.mem_range] at hm hk
  have hval := congrArg UInt32.toNat (NodeRef.cell.inj he).2
  rwa [UInt32.toNat_ofNat', UInt32.toNat_ofNat', Nat.mod_eq_of_lt (by omega),
    Nat.mod_eq_of_lt (by omega)] at hval

variable (h : c.Accounts live issued freed) (hfew : ∀ i, freed.countP (names i) < 2 ^ 32)
include h hfew

theorem nodup_freed : freed.Nodup := by
  refine List.nodup_iff_count_le_one.mpr fun x => ?_
  cases x with
  | nowhere => rw [List.count_eq_zero_of_not_mem h.somewhere]; exact Nat.zero_le 1
  | cell i g =>
    have hcount := List.count_filter (l := freed) (p := names i) (a := .cell i g) (by simp [names])
    rw [← hcount, h.turns i]
    exact List.nodup_iff_count_le_one.mp (nodup_past (Nat.le_of_lt (hfew i))) _

/-- A reference that was taken back is not that of a live node. -/
theorem notMem_live (hr : r ∈ freed) : r ∉ live := by
  intro hl
  cases r with
  | nowhere => exact h.somewhere hr
  | cell i g =>
    have hg := (NodeRef.cell.inj (h.hold.eq_current hl).1).2.trans (h.generation i)
    have hm : NodeRef.cell i g ∈ freed.filter (names i) := List.mem_filter.mpr ⟨hr, by simp [names]⟩
    rw [h.turns i] at hm
    obtain ⟨m, hm, he⟩ := List.mem_map.mp hm
    rw [List.mem_range] at hm
    have hfew := hfew i
    have hval := congrArg UInt32.toNat ((NodeRef.cell.inj he).2.trans hg)
    rw [UInt32.toNat_ofNat', UInt32.toNat_ofNat', Nat.mod_eq_of_lt (by omega),
      Nat.mod_eq_of_lt (by omega)] at hval
    omega

/-- **No reference is handed out twice.** -/
theorem nodup : issued.Nodup := by
  refine h.balance.nodup_iff.mpr (List.nodup_append.mpr ⟨h.hold.nodup, h.nodup_freed hfew, ?_⟩)
  rintro x hl _ hf rfl
  exact h.notMem_live hfew hf hl

end Accounts

end Cells

/-! ## Calls that hand out nothing -/

namespace Store

variable {s s' : Store} {r x : NodeRef}

/-- In a store with distinct references the same references are in use, and the cells are the same. -/
def Retains (s s' : Store) : Prop := s.Distinct → s'.cells = s.cells ∧ s'.refs.Perm s.refs

theorem lasting_retains : Lasting Retains where
  refl := fun _ _ => ⟨rfl, List.Perm.refl _⟩
  trans := fun h h' hd =>
    have ⟨hc, hp⟩ := h hd
    have ⟨hc', hp'⟩ := h' (hp.nodup_iff.mpr hd)
    ⟨hc'.trans hc, hp'.trans hp⟩

theorem retains_setData (s : Store) (r : NodeRef) (data : NodeData) : s.Retains (s.setData r data) :=
  fun _ => ⟨rfl, refs_setData s r data ▸ List.Perm.refl _⟩

theorem retains_takeOut (s : Store) (r : NodeRef) : s.Retains (s.takeOut r) := by
  intro h
  refine ⟨?_, (h.perm_takeOut r).map _⟩
  unfold takeOut
  split <;> rfl

theorem retains_scatter (s : Store) (r : NodeRef) : s.Retains (s.scatter r) := by
  intro h
  refine ⟨?_, (h.perm_scatter r).map _⟩
  unfold scatter
  split <;> rfl

theorem retains_place {parent child : NodeRef} (hi : s.Insertable parent child)
    (before : Option NodeRef) : s.Retains (s.place parent child before) := by
  intro h
  obtain ⟨d, hd, -⟩ := hi.container
  obtain ⟨e, he, -⟩ := hi.movable
  obtain ⟨c, hc⟩ := exists_tree?_of_get? he
  obtain ⟨⟨m, k⟩, hu, -, -⟩ := h.find?_prune hc (get?_isSome_iff.mp (by rw [hd]; rfl)) hi.notAbove
  unfold place
  rw [hc]
  exact ⟨rfl, (h.perm_place _ hc hu).map _⟩

theorem retains_insertBefore (parent child : NodeRef) (reference : Option NodeRef) :
    Keeps Retains (insertBefore parent child reference) :=
  keeps_insertBefore lasting_retains (fun _ _ _ before hi => retains_place hi before) parent child reference

theorem retains_detach (r : NodeRef) : Keeps Retains (detach r) := keeps_detach lasting_retains retains_takeOut r

theorem retains_removeChild (parent child : NodeRef) : Keeps Retains (removeChild parent child) :=
  keeps_removeChild lasting_retains retains_takeOut parent child

theorem retains_insertAfter (reference : NodeRef) (nodes : List NodeRef) :
    Keeps Retains (insertAfter reference nodes) :=
  keeps_insertAfter lasting_retains (fun _ _ _ before hi => retains_place hi before) reference nodes

theorem retains_insertAllBefore (reference : NodeRef) (nodes : List NodeRef) :
    Keeps Retains (insertAllBefore reference nodes) :=
  keeps_insertAllBefore lasting_retains (fun _ _ _ before hi => retains_place hi before) reference nodes

theorem retains_replaceWith (old : NodeRef) (nodes : List NodeRef) : Keeps Retains (replaceWith old nodes) :=
  keeps_replaceWith lasting_retains retains_takeOut (fun _ _ _ before hi => retains_place hi before) old nodes

/-! ## A new node in the place of the children of another -/

section Text

variable {n : Node} {c : Forest Node} {data : NodeData}

/-- A node whose children were let go has none. -/
theorem tree?_scatter (h : s.Distinct) (ht : s.tree? r = some (n, c)) :
    (s.scatter r).tree? r = some (n, .nil) := by
  have hc : c.find? (is r) = none := by
    have hle := h.countP_le_one r
    rw [(Forest.perm_prune hle ht).countP_eq, Forest.labels_mk, List.cons_append, List.countP_cons,
      if_pos (is_iff.mpr (mem_trees_of_tree? ht).2), List.countP_append] at hle
    exact Forest.find?_eq_none.mpr (Forest.not_of_countP_eq_zero (by omega))
  have hedit := Forest.find?_editChildren (fun _ => .nil) ht
  unfold scatter
  rw [ht, tree?, Forest.find?_append, hc, Option.none_or, hedit]

/-- A new node that is put under another one. -/
theorem place_create (hnew : ¬ s.Live (s.create data).1) :
    ((s.create data).2.place r (s.create data).1 none).forest =
      s.forest.editChildren (is r) (·.adopt (fun _ => false) (⟨(s.create data).1, data⟩, .nil)) := by
  have hnot : ∀ m ∈ s.forest.toList, ¬ is (s.create data).1 m = true := fun m hm he =>
    hnew (List.mem_map.mpr ⟨m, hm, is_iff.mp he⟩)
  have hself : is (s.create data).1 (⟨(s.create data).1, data⟩ : Node) = true := is_iff.mpr rfl
  have hchild := s.tree?_create data
  have hprune : (s.create data).2.forest.prune (is (s.create data).1) = s.forest := by
    change (Forest.node ⟨(s.create data).1, data⟩ .nil s.forest).prune (is (s.create data).1) = _
    rw [Forest.prune, if_pos hself, Forest.prune_eq_self hnot]
  unfold place
  rw [hchild]
  simp only [hprune]
  rfl

end Text

end Store

end DomHost
