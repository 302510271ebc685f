import DomHost.Proofs.Forest.Paths
import DomHost.Proofs.Store.Rows

/-!
# Other trees under one label

A label can be given other children as a whole. Every label that stands neither below it nor in the new trees
keeps its place, and what is below such a label is as before but for the exchange.

* `Forest.refill`: the exchange;
* `Forest.refill_refill`, `Forest.refill_nil_adopt`: one exchange after another;
* `Forest.prune_eq_refill`: taking the first child away is an exchange;
* **`Forest.find?_refill`**, **`Forest.pathTo?_refill`**: what is found elsewhere, and the ways up;
* `Forest.map_refill`: two exchanges that look alike.
-/

namespace DomHost.Forest

variable {α β : Type} {p q : α → Bool} {f k k' : Forest α} {a b : α} {c d : Forest α}

/-- Other trees in the place of the children of the label that passes the test. -/
def refill (p : α → Bool) (f k : Forest α) : Forest α := f.editChildren p fun _ => k

theorem refill_node (a : α) (c n k : Forest α) :
    (node a c n).refill p k = node a (if p a then k else c.refill p k) (n.refill p k) := by
  rw [refill, editChildren]
  split <;> rfl

theorem refill_eq_self (h : ∀ a ∈ f.toList, ¬ p a = true) : f.refill p k = f := editChildren_eq_self h

/-! ## One exchange after another -/

theorem editChildren_editChildren (f : Forest α) (g h : Forest α → Forest α) :
    (f.editChildren p g).editChildren p h = f.editChildren p fun c => h (g c) := by
  induction f with
  | nil => rfl
  | node a c n ihc ihn =>
    by_cases hp : p a = true
    · simp only [editChildren, if_pos hp, ihn]
    · simp only [editChildren, if_neg hp, ihc, ihn]

theorem refill_refill (f : Forest α) : (f.refill p k).refill p k' = f.refill p k' :=
  editChildren_editChildren f _ _

/-- A tree that is put under a label without children. -/
theorem refill_nil_adopt (f : Forest α) (before : α → Bool) (t : α × Forest α) :
    (f.refill p .nil).editChildren p (·.adopt before t) = f.refill p (.node t.1 t.2 .nil) :=
  editChildren_editChildren f _ _

theorem find?_refill_self (h : f.find? p = some (a, c)) : (f.refill p k).find? p = some (a, k) :=
  find?_editChildren _ h

theorem perm_refill (h1 : f.toList.countP p ≤ 1) (h : f.find? p = some (a, c)) :
    ((f.refill p k).toList ++ c.toList).Perm (f.toList ++ k.toList) :=
  perm_editChildren _ h1 h

/-- A label of the children of the one that is found. -/
theorem mem_toList_of_find? (h : f.find? p = some (a, c)) (hb : b ∈ c.toList) : b ∈ f.toList :=
  mem_toList_of_mem_labels (mem_trees_of_find? h).1 (List.mem_cons_of_mem a hb)

/-- **To take away the first child of a label is to leave it the others.** -/
theorem prune_eq_refill {n : Forest α} (h1 : f.toList.countP p ≤ 1) (hq : f.toList.countP q ≤ 1)
    (h : f.find? p = some (a, .node b d n)) (hb : q b = true) : f.prune q = f.refill p n := by
  have hpos {g : Forest α} (hg : g.find? p = some (a, .node b d n)) : 0 < g.toList.countP q :=
    List.countP_pos_iff.mpr ⟨b, mem_toList_of_find? hg (by simp), hb⟩
  induction f with
  | nil => simp [find?] at h
  | node e c next ihc ihn =>
    rw [toList_node, List.countP_cons, List.countP_append] at h1 hq
    rw [find?_node] at h
    rw [refill_node, prune]
    by_cases hp : p e = true
    · rw [if_pos hp] at h h1
      obtain ⟨rfl, rfl⟩ := Prod.mk.inj (Option.some.inj h)
      rw [toList_node, List.countP_cons, if_pos hb, List.countP_append] at hq
      have he : ¬ q e = true := fun he => by rw [if_pos he] at hq; omega
      rw [if_neg he, if_pos hp, prune, if_pos hb, prune_eq_self (f := n) (not_of_countP_eq_zero (by omega)),
        prune_eq_self (f := next) (not_of_countP_eq_zero (by omega)),
        refill_eq_self (f := next) (not_of_countP_eq_zero (by omega))]
    · rw [if_neg hp] at h h1
      rw [if_neg hp]
      have he : ¬ q e = true := fun he => by
        rw [if_pos he] at hq
        rcases Option.or_eq_some_iff.mp h with h | ⟨-, h⟩ <;> have := hpos h <;> omega
      rw [if_neg he]
      rcases Option.or_eq_some_iff.mp h with h | ⟨hnone, h⟩
      · have hc := hpos h
        have hpc := countP_pos_of_find? h
        rw [ihc (by omega) (by omega) h, prune_eq_self (f := next) (not_of_countP_eq_zero (by omega)),
          refill_eq_self (f := next) (not_of_countP_eq_zero (by omega))]
      · have hn := hpos h
        rw [ihn (by omega) (by omega) h, prune_eq_self (f := c) (not_of_countP_eq_zero (by omega)),
          refill_eq_self (f := c) (find?_eq_none.mp hnone)]

/-! ## What stands elsewhere -/

theorem mem_toList_refill (hb : b ∈ (f.refill p k).toList) : b ∈ f.toList ∨ b ∈ k.toList := by
  induction f with
  | nil => exact Or.inl hb
  | node e c n ihc ihn =>
    rw [refill_node, toList_node, List.mem_cons, List.mem_append] at hb
    rw [toList_node, List.mem_cons, List.mem_append]
    rcases hb with rfl | hb | hb
    · exact Or.inl (Or.inl rfl)
    · split at hb
      · exact Or.inr hb
      · exact (ihc hb).imp_left fun hb => Or.inr (Or.inl hb)
    · exact (ihn hb).imp_left fun hb => Or.inr (Or.inr hb)

/-- No label below the one that passes the first test passes the second. -/
def NotBelow (p q : α → Bool) (f : Forest α) : Prop :=
  ∀ t ∈ f.trees, p t.1 = true → ∀ e ∈ t.2.toList, ¬ q e = true

theorem NotBelow.children {e : α} {c n : Forest α} (h : (node e c n).NotBelow p q) : c.NotBelow p q :=
  fun t ht => h t (by simp [trees, ht])

theorem NotBelow.next {e : α} {c n : Forest α} (h : (node e c n).NotBelow p q) : n.NotBelow p q :=
  fun t ht => h t (by simp [trees, ht])

theorem NotBelow.self {e : α} {c n : Forest α} (h : (node e c n).NotBelow p q) (hp : p e = true) :
    ∀ x ∈ c.toList, ¬ q x = true := h (e, c) (by simp [trees]) hp

/-- **What is found elsewhere is as it was, but for the exchange below it.** -/
theorem find?_refill (hk : ∀ e ∈ k.toList, ¬ q e = true) (hn : f.NotBelow p q) :
    (f.refill p k).find? q = (f.find? q).map fun t => (t.1, if p t.1 then k else t.2.refill p k) := by
  induction f with
  | nil => rfl
  | node e c n ihc ihn =>
    rw [refill_node, find?_node, find?_node, ihn hn.next]
    by_cases hp : p e = true
    · rw [if_pos hp, find?_eq_none.mpr hk, find?_eq_none.mpr (hn.self hp), Option.none_or, Option.none_or]
      split
      · rw [Option.map_some, if_pos hp]
      · rfl
    · rw [if_neg hp, ihc hn.children]
      split
      · rw [Option.map_some, if_neg hp]
      · exact (Option.map_or ..).symm

/-- **The ways up from elsewhere are as before.** -/
theorem pathTo?_refill (hk : ∀ e ∈ k.toList, ¬ q e = true) (hn : f.NotBelow p q) (above : List α) :
    (f.refill p k).pathTo? q above = f.pathTo? q above := by
  induction f generalizing above with
  | nil => rfl
  | node e c n ihc ihn =>
    rw [refill_node, pathTo?_node, pathTo?_node, ihn hn.next]
    by_cases hp : p e = true
    · rw [if_pos hp, pathTo?_eq_none.mpr hk, pathTo?_eq_none.mpr (hn.self hp)]
    · rw [if_neg hp, ihc hn.children]

theorem roots_refill (f : Forest α) : (f.refill p k).roots = f.roots := roots_editChildren f _

/-! ## Exchanges that look alike -/

/-- **Trees that look alike leave forests that look alike.** -/
theorem map_refill {g : α → β} (hk : k.map g = k'.map g) (f : Forest α) :
    (f.refill p k).map g = (f.refill p k').map g := by
  induction f with
  | nil => rfl
  | node e c n ihc ihn =>
    rw [refill_node, refill_node, map, map, ihn]
    split
    · rw [hk]
    · rw [ihc]

end DomHost.Forest
