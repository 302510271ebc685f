import DomHost.Forest
import Mathlib.Data.List.Perm.Basic

/-!
# Labels of forests

What the edits of a forest do to its labels, counted with repetitions, and to its top-level trees.

* `tops`, `labels`, `trees`: the top-level trees, the labels of a tree, all trees in pre-order;
* **`perm_prune`**, **`perm_editChildren`**: no edit loses or repeats a label;
* `mem_tops_prune`, `mem_tops_editChildren`, `mem_tops_relabel`: a top-level tree without the label
  stays as it is;
* `BearsOnly`: only labels of a kind have children.
-/

namespace DomHost.Forest

variable {α β σ : Type}

/-- The trees of the top level. -/
def tops : Forest α → List (α × Forest α)
  | nil => []
  | node a c n => (a, c) :: n.tops

/-- The labels of a tree, in pre-order. -/
def labels (t : α × Forest α) : List α := t.1 :: t.2.toList

/-- All trees of a forest, in the order of their labels. -/
def trees : Forest α → List (α × Forest α)
  | nil => []
  | node a c n => (a, c) :: (c.trees ++ n.trees)

theorem labels_mk (a : α) (c : Forest α) : labels (a, c) = a :: c.toList := rfl

theorem toList_eq_flatMap_tops (f : Forest α) : f.toList = f.tops.flatMap labels := by
  induction f with
  | nil => rfl
  | node a c n _ ihn => simp [tops, labels_mk, ihn]

theorem roots_eq_map_tops (f : Forest α) : f.roots = f.tops.map Prod.fst := by
  induction f with
  | nil => rfl
  | node a c n _ ihn => simp [tops, roots, ihn]

theorem toList_eq_map_trees (f : Forest α) : f.toList = f.trees.map Prod.fst := by
  induction f with
  | nil => rfl
  | node a c n ihc ihn => simp [trees, ihc, ihn]

theorem mem_toList_of_mem_tops {f : Forest α} {t : α × Forest α} (h : t ∈ f.tops) {a : α}
    (ha : a ∈ labels t) : a ∈ f.toList := by
  rw [toList_eq_flatMap_tops]
  exact List.mem_flatMap.mpr ⟨t, h, ha⟩

theorem mem_toList_of_mem_roots {f : Forest α} {a : α} (h : a ∈ f.roots) : a ∈ f.toList := by
  rw [roots_eq_map_tops] at h
  obtain ⟨t, ht, rfl⟩ := List.mem_map.mp h
  exact mem_toList_of_mem_tops ht (by simp [labels])

theorem mem_toList_of_mem_trees {f : Forest α} {t : α × Forest α} (h : t ∈ f.trees) :
    t.1 ∈ f.toList := by
  rw [toList_eq_map_trees]
  exact List.mem_map_of_mem h

/-- The labels of a tree are labels of the forest. -/
theorem mem_toList_of_mem_labels {f : Forest α} {t : α × Forest α} (h : t ∈ f.trees) {a : α}
    (ha : a ∈ labels t) : a ∈ f.toList := by
  induction f with
  | nil => simp [trees] at h
  | node b c n ihc ihn =>
    simp only [trees, List.mem_cons, List.mem_append] at h
    rcases h with rfl | h | h
    · simp only [labels_mk, List.mem_cons] at ha
      rcases ha with rfl | ha <;> simp_all
    · simp [ihc h]
    · simp [ihn h]

theorem labels_eq_map_trees (t : α × Forest α) : labels t = (t :: t.2.trees).map Prod.fst := by
  rw [labels, List.map_cons, toList_eq_map_trees]

theorem mem_trees_of_mem_tops {f : Forest α} {t : α × Forest α} (h : t ∈ f.tops) : t ∈ f.trees := by
  induction f with
  | nil => simp [tops] at h
  | node a c n _ ihn =>
    simp only [tops, List.mem_cons] at h
    simp only [trees, List.mem_cons, List.mem_append]
    exact h.imp id fun h => Or.inr (ihn h)

/-- The trees below a tree are trees of the forest. -/
theorem mem_trees_of_mem_below {f : Forest α} {t : α × Forest α} (h : t ∈ f.trees)
    {u : α × Forest α} (hu : u ∈ t.2.trees) : u ∈ f.trees := by
  induction f with
  | nil => simp [trees] at h
  | node a c n ihc ihn =>
    simp only [trees, List.mem_cons, List.mem_append] at h ⊢
    rcases h with rfl | h | h
    · exact Or.inr (Or.inl hu)
    · exact Or.inr (Or.inl (ihc h))
    · exact Or.inr (Or.inr (ihn h))

/-! ## Replacing labels -/

theorem toList_map (f : Forest α) (g : α → β) : (f.map g).toList = f.toList.map g := by
  induction f with
  | nil => rfl
  | node a c n ihc ihn => simp [map, ihc, ihn]

theorem roots_map (f : Forest α) (g : α → β) : (f.map g).roots = f.roots.map g := by
  induction f with
  | nil => rfl
  | node a c n _ ihn => simp only [map, roots, ihn, List.map_cons]

theorem trees_map (f : Forest α) (g : α → β) : (f.map g).trees = f.trees.map fun t => (g t.1, t.2.map g) := by
  induction f with
  | nil => rfl
  | node a c n ihc ihn => simp only [map, trees, ihc, ihn, List.map_cons, List.map_append]

theorem map_map {γ : Type} (p : α → β) (q : β → γ) (f : Forest α) : (f.map p).map q = f.map fun a => q (p a) := by
  induction f with
  | nil => rfl
  | node a c n ihc ihn => simp only [map, ihc, ihn]

theorem rename_map (f : Forest α) (g : α → β) {γ : Type} (draw : β → σ → γ × σ) (s : σ) :
    (f.map g).rename draw s = f.rename (fun a => draw (g a)) s := by
  induction f generalizing s with
  | nil => rfl
  | node a c n ihc ihn => simp only [map, rename, ihc, ihn]

/-! ## Appending -/

theorem toList_append (f g : Forest α) : (f ++ g).toList = f.toList ++ g.toList := by
  change (f.append g).toList = _
  induction f with
  | nil => rfl
  | node a c n _ ihn => simp [append, ihn]

theorem tops_append (f g : Forest α) : (f ++ g).tops = f.tops ++ g.tops := by
  change (f.append g).tops = _
  induction f with
  | nil => rfl
  | node a c n _ ihn => simp [append, tops, ihn]

/-! ## Searching -/

section Search

variable {p : α → Bool}

theorem find?_node (a : α) (c n : Forest α) :
    (node a c n).find? p = if p a then some (a, c) else (c.find? p).or (n.find? p) := by
  rw [find?]
  split
  · rfl
  · cases c.find? p <;> rfl

theorem find?_eq_find?_trees (f : Forest α) : f.find? p = f.trees.find? (p ·.1) := by
  induction f with
  | nil => rfl
  | node a c n ihc ihn =>
    rw [find?_node, trees, List.find?_cons, List.find?_append, ihc, ihn]
    cases p a <;> rfl

theorem find?_eq_none {f : Forest α} : f.find? p = none ↔ ∀ a ∈ f.toList, ¬ p a = true := by
  rw [find?_eq_find?_trees, List.find?_eq_none, toList_eq_map_trees]
  simp

theorem mem_trees_of_find? {f : Forest α} {t : α × Forest α} (h : f.find? p = some t) :
    t ∈ f.trees ∧ p t.1 = true := by
  rw [find?_eq_find?_trees] at h
  exact ⟨List.mem_of_find?_eq_some h, by simpa using List.find?_some h⟩

theorem exists_find? {f : Forest α} {a : α} (ha : a ∈ f.toList) (hp : p a = true) :
    ∃ t, f.find? p = some t := by
  cases h : f.find? p with
  | none => exact absurd hp (find?_eq_none.mp h a ha)
  | some t => exact ⟨t, rfl⟩

end Search

/-! ## Edits without a label to work on -/

section Absent

variable {p : α → Bool}

theorem prune_eq_self {f : Forest α} (h : ∀ a ∈ f.toList, ¬ p a = true) : f.prune p = f := by
  induction f with
  | nil => rfl
  | node a c n ihc ihn =>
    simp only [toList_node, List.mem_cons, List.mem_append] at h
    rw [prune, if_neg (h a (Or.inl rfl)), ihc fun b hb => h b (Or.inr (Or.inl hb)),
      ihn fun b hb => h b (Or.inr (Or.inr hb))]

theorem editChildren_eq_self {f : Forest α} {g : Forest α → Forest α}
    (h : ∀ a ∈ f.toList, ¬ p a = true) : f.editChildren p g = f := by
  induction f with
  | nil => rfl
  | node a c n ihc ihn =>
    simp only [toList_node, List.mem_cons, List.mem_append] at h
    rw [editChildren, if_neg (h a (Or.inl rfl)), ihc fun b hb => h b (Or.inr (Or.inl hb)),
      ihn fun b hb => h b (Or.inr (Or.inr hb))]

/-- A new label that is the old one changes nothing either. -/
theorem relabel_eq_self {f : Forest α} {g : α → α} (h : ∀ a ∈ f.toList, p a = true → g a = a) :
    f.relabel p g = f := by
  induction f with
  | nil => rfl
  | node a c n ihc ihn =>
    simp only [toList_node, List.mem_cons, List.mem_append] at h
    rw [relabel, ite_eq_right_iff.mpr (h a (Or.inl rfl)), ihc fun b hb => h b (Or.inr (Or.inl hb)),
      ihn fun b hb => h b (Or.inr (Or.inr hb))]

end Absent

theorem relabel_relabel {p : α → Bool} {g g' : α → α} (h : ∀ a, p a = true → p (g a) = true) (f : Forest α) :
    (f.relabel p g).relabel p g' = f.relabel p (g' ∘ g) := by
  induction f with
  | nil => rfl
  | node a c n ihc ihn =>
    simp only [relabel, ihc, ihn]
    by_cases ha : p a = true
    · rw [if_pos ha, if_pos (h a ha), if_pos ha, Function.comp_apply]
    · rw [if_neg ha, if_neg ha, if_neg ha]

/-! ## Top-level trees -/

section Tops

variable {p : α → Bool}

theorem roots_prune (f : Forest α) : (f.prune p).roots = f.roots.filter (!p ·) := by
  induction f with
  | nil => rfl
  | node a c n _ ihn =>
    rw [prune]
    split <;> simp_all [roots]

theorem roots_editChildren (f : Forest α) (g : Forest α → Forest α) :
    (f.editChildren p g).roots = f.roots := by
  induction f with
  | nil => rfl
  | node a c n _ ihn =>
    rw [editChildren]
    split <;> simp_all [roots]

theorem roots_relabel (f : Forest α) (g : α → α) :
    (f.relabel p g).roots = f.roots.map fun a => if p a then g a else a := by
  induction f with
  | nil => rfl
  | node a c n _ ihn => simp [relabel, roots, ihn]

theorem mem_tops_prune {f : Forest α} {t : α × Forest α} (h : t ∈ f.tops)
    (ht : ∀ a ∈ labels t, ¬ p a = true) : t ∈ (f.prune p).tops := by
  induction f with
  | nil => simp [tops] at h
  | node a c n _ ihn =>
    simp only [tops, List.mem_cons] at h
    rcases h with rfl | h
    · simp only [labels_mk, List.mem_cons] at ht
      rw [prune, if_neg (ht a (Or.inl rfl)), prune_eq_self fun b hb => ht b (Or.inr hb)]
      simp [tops]
    · rw [prune]
      split
      · exact ihn h
      · simp [tops, ihn h]

theorem mem_tops_editChildren {f : Forest α} {t : α × Forest α} {g : Forest α → Forest α}
    (h : t ∈ f.tops) (ht : ∀ a ∈ labels t, ¬ p a = true) : t ∈ (f.editChildren p g).tops := by
  induction f with
  | nil => simp [tops] at h
  | node a c n _ ihn =>
    simp only [tops, List.mem_cons] at h
    rcases h with rfl | h
    · simp only [labels_mk, List.mem_cons] at ht
      rw [editChildren, if_neg (ht a (Or.inl rfl)),
        editChildren_eq_self fun b hb => ht b (Or.inr hb)]
      simp [tops]
    · rw [editChildren]
      split <;> simp [tops, ihn h]

theorem mem_tops_relabel {f : Forest α} {t : α × Forest α} {g : α → α}
    (h : t ∈ f.tops) (ht : ∀ a ∈ labels t, ¬ p a = true) : t ∈ (f.relabel p g).tops := by
  induction f with
  | nil => simp [tops] at h
  | node a c n _ ihn =>
    simp only [tops, List.mem_cons] at h
    rcases h with rfl | h
    · simp only [labels_mk, List.mem_cons] at ht
      rw [relabel, if_neg (ht a (Or.inl rfl)), relabel_eq_self fun b hb hp => absurd hp (ht b (Or.inr hb))]
      simp [tops]
    · simp [relabel, tops, ihn h]

end Tops

/-! ## Counting labels -/

section Count

variable {p : α → Bool}

theorem countP_pos_of_find? {f : Forest α} {t : α × Forest α} (h : f.find? p = some t) :
    0 < f.toList.countP p := by
  obtain ⟨ht, hp⟩ := mem_trees_of_find? h
  exact List.countP_pos_iff.mpr ⟨t.1, mem_toList_of_mem_trees ht, hp⟩

theorem not_of_countP_eq_zero {l : List α} (h : l.countP p = 0) : ∀ a ∈ l, ¬ p a = true :=
  List.countP_eq_zero.mp h

/-- **A forest without one of its trees has lost the labels of that tree.** -/
theorem perm_prune {f : Forest α} {t : α × Forest α} (h1 : f.toList.countP p ≤ 1)
    (h : f.find? p = some t) : f.toList.Perm (labels t ++ (f.prune p).toList) := by
  induction f with
  | nil => simp [find?] at h
  | node a c n ihc ihn =>
    rw [toList_node, List.countP_cons, List.countP_append] at h1
    rw [find?_node] at h
    rw [prune, toList_node]
    by_cases hp : p a = true
    · rw [if_pos hp] at h h1
      obtain rfl := Option.some.inj h
      rw [if_pos hp, prune_eq_self (not_of_countP_eq_zero (by omega)), labels_mk]
      exact List.Perm.refl _
    · rw [if_neg hp] at h h1
      rw [if_neg hp, toList_node]
      refine (List.Perm.cons a ?_).trans List.perm_middle.symm
      cases hc : c.find? p with
      | some t' =>
        have hpos := countP_pos_of_find? hc
        rw [hc, Option.some_or] at h
        obtain rfl := Option.some.inj h
        rw [prune_eq_self (f := n) (not_of_countP_eq_zero (by omega)), ← List.append_assoc]
        exact (ihc (by omega) hc).append_right _
      | none =>
        rw [hc, Option.none_or] at h
        rw [prune_eq_self (f := c) (find?_eq_none.mp hc)]
        refine ((ihn (by omega) h).append_left _).trans ?_
        rw [← List.append_assoc, ← List.append_assoc]
        exact List.perm_append_comm.append_right _

theorem perm_append_right_comm (l₁ l₂ l₃ : List α) :
    (l₁ ++ l₂ ++ l₃).Perm (l₁ ++ l₃ ++ l₂) := by
  rw [List.append_assoc, List.append_assoc]
  exact List.perm_append_comm.append_left l₁

/-- **Editing the children of a label changes the labels by those of the children alone.** -/
theorem perm_editChildren {f : Forest α} {a : α} {c : Forest α} (g : Forest α → Forest α)
    (h1 : f.toList.countP p ≤ 1) (h : f.find? p = some (a, c)) :
    ((f.editChildren p g).toList ++ c.toList).Perm (f.toList ++ (g c).toList) := by
  induction f with
  | nil => simp [find?] at h
  | node b d n ihd ihn =>
    rw [toList_node, List.countP_cons, List.countP_append] at h1
    rw [find?_node] at h
    rw [editChildren, toList_node]
    by_cases hp : p b = true
    · rw [if_pos hp] at h h1
      obtain ⟨rfl, rfl⟩ := Prod.mk.inj (Option.some.inj h)
      rw [if_pos hp, toList_node, editChildren_eq_self (not_of_countP_eq_zero (by omega)),
        List.cons_append, List.cons_append]
      refine List.Perm.cons b ?_
      exact (perm_append_right_comm _ _ _).trans
        ((List.perm_append_comm.append_right _).trans (perm_append_right_comm _ _ _))
    · rw [if_neg hp] at h h1
      rw [if_neg hp, toList_node, List.cons_append, List.cons_append]
      refine List.Perm.cons b ?_
      cases hd : d.find? p with
      | some t' =>
        have hpos := countP_pos_of_find? hd
        rw [hd, Option.some_or] at h
        obtain rfl := Option.some.inj h
        rw [editChildren_eq_self (f := n) (not_of_countP_eq_zero (by omega))]
        exact (perm_append_right_comm _ _ _).trans
          (((ihd (by omega) hd).append_right _).trans (perm_append_right_comm _ _ _))
      | none =>
        rw [hd, Option.none_or] at h
        rw [editChildren_eq_self (f := d) (find?_eq_none.mp hd), List.append_assoc,
          List.append_assoc]
        exact (ihn (by omega) h).append_left _

/-- The children of the label that passes the test are those it was given. -/
theorem find?_editChildren {f : Forest α} {a : α} {c : Forest α} (g : Forest α → Forest α)
    (h : f.find? p = some (a, c)) : (f.editChildren p g).find? p = some (a, g c) := by
  induction f with
  | nil => simp [find?] at h
  | node b d n ihd ihn =>
    rw [find?_node] at h
    rw [editChildren]
    split at h
    · rename_i hb
      obtain ⟨rfl, rfl⟩ := Prod.mk.inj (Option.some.inj h)
      rw [if_pos hb, find?_node, if_pos hb]
    · rename_i hb
      rw [if_neg hb, find?_node, if_neg hb]
      rcases Option.or_eq_some_iff.mp h with h | ⟨hd, h⟩
      · rw [ihd h, Option.some_or]
      · rw [editChildren_eq_self (find?_eq_none.mp hd), hd, Option.none_or, ihn h]

theorem find?_append (f g : Forest α) : (f ++ g).find? p = (f.find? p).or (g.find? p) := by
  change (f.append g).find? p = _
  induction f with
  | nil => rfl
  | node a c n _ ihn =>
    rw [append, find?_node, find?_node, ihn]
    split
    · rfl
    · rw [Option.or_assoc]

/-- Children that an edit leaves as they are leave the forest as it is. -/
theorem editChildren_fixed {f : Forest α} {a : α} {c : Forest α} {g : Forest α → Forest α}
    (h1 : f.toList.countP p ≤ 1) (h : f.find? p = some (a, c)) (hg : g c = c) :
    f.editChildren p g = f := by
  induction f with
  | nil => rfl
  | node b d n ihd ihn =>
    rw [toList_node, List.countP_cons, List.countP_append] at h1
    rw [find?_node] at h
    rw [editChildren]
    by_cases hp : p b = true
    · rw [if_pos hp] at h h1
      obtain ⟨rfl, rfl⟩ := Prod.mk.inj (Option.some.inj h)
      rw [if_pos hp, hg, editChildren_eq_self (not_of_countP_eq_zero (by omega))]
    · rw [if_neg hp] at h h1
      rw [if_neg hp]
      cases hd : d.find? p with
      | some t' =>
        have hpos := countP_pos_of_find? hd
        rw [hd, Option.some_or] at h
        obtain rfl := Option.some.inj h
        rw [editChildren_eq_self (f := n) (not_of_countP_eq_zero (by omega)), ihd (by omega) hd]
      | none =>
        rw [hd, Option.none_or] at h
        rw [editChildren_eq_self (f := d) (find?_eq_none.mp hd), ihn (by omega) h]

theorem roots_eq_nil_iff {f : Forest α} : f.roots = [] ↔ f = nil := by
  cases f <;> simp [roots]

theorem perm_adopt (f : Forest α) (before : α → Bool) (t : α × Forest α) :
    (f.adopt before t).toList.Perm (labels t ++ f.toList) := by
  induction f with
  | nil => simp [adopt, labels]
  | node a c n _ ihn =>
    rw [adopt]
    split
    · simp [labels]
    · rw [toList_node, toList_node]
      refine ((ihn.append_left c.toList).cons a).trans ?_
      refine (List.Perm.cons a ?_).trans List.perm_middle.symm
      rw [← List.append_assoc, ← List.append_assoc]
      exact List.perm_append_comm.append_right _

theorem toList_relabel (f : Forest α) (g : α → α) :
    (f.relabel p g).toList = f.toList.map fun a => if p a then g a else a := by
  induction f with
  | nil => rfl
  | node a c n ihc ihn => simp [relabel, ihc, ihn]

end Count

/-! ## Which labels have children -/

/-- Only labels of a kind have children. -/
def BearsOnly (ok : α → Prop) : Forest α → Prop
  | nil => True
  | node a c n => (c ≠ nil → ok a) ∧ c.BearsOnly ok ∧ n.BearsOnly ok

namespace BearsOnly

variable {ok : α → Prop} {p : α → Bool} {f : Forest α}

theorem empty : (nil : Forest α).BearsOnly ok := trivial

theorem leaf {a : α} {n : Forest α} (hn : n.BearsOnly ok) : (node a nil n).BearsOnly ok :=
  ⟨fun hne => (hne rfl).elim, trivial, hn⟩

theorem cons {a : α} {c n : Forest α} (ha : ok a) (hc : c.BearsOnly ok) (hn : n.BearsOnly ok) :
    (node a c n).BearsOnly ok := ⟨fun _ => ha, hc, hn⟩

theorem of_mem_trees (h : f.BearsOnly ok) {t : α × Forest α} (ht : t ∈ f.trees) :
    (t.2 ≠ nil → ok t.1) ∧ t.2.BearsOnly ok := by
  induction f with
  | nil => simp [trees] at ht
  | node a c n ihc ihn =>
    obtain ⟨ha, hc, hn⟩ := h
    simp only [trees, List.mem_cons, List.mem_append] at ht
    rcases ht with rfl | ht | ht
    · exact ⟨ha, hc⟩
    · exact ihc hc ht
    · exact ihn hn ht

theorem map_iff {g : β → α} {f : Forest β} :
    (f.map g).BearsOnly ok ↔ f.BearsOnly fun b => ok (g b) := by
  induction f with
  | nil => exact Iff.rfl
  | node b c n ihc ihn =>
    have hnil : c.map g ≠ nil ↔ c ≠ nil := by cases c <;> simp [Forest.map]
    simp only [Forest.map, BearsOnly, hnil, ihc, ihn]

theorem prune (h : f.BearsOnly ok) : (f.prune p).BearsOnly ok := by
  induction f with
  | nil => exact h
  | node a c n ihc ihn =>
    obtain ⟨ha, hc, hn⟩ := h
    rw [Forest.prune]
    split
    · exact ihn hn
    · exact ⟨fun hne => ha fun he => hne (by rw [he]; rfl), ihc hc, ihn hn⟩

theorem append {g : Forest α} (h : f.BearsOnly ok) (hg : g.BearsOnly ok) :
    (f ++ g).BearsOnly ok := by
  change (f.append g).BearsOnly ok
  induction f with
  | nil => exact hg
  | node a c n _ ihn => exact ⟨h.1, h.2.1, ihn h.2.2⟩

theorem editChildren {g : Forest α → Forest α} (h : f.BearsOnly ok)
    (hg : ∀ c, c.BearsOnly ok → (g c).BearsOnly ok)
    (hp : ∀ a ∈ f.toList, p a = true → ∀ c, g c ≠ nil → ok a) :
    (f.editChildren p g).BearsOnly ok := by
  induction f with
  | nil => exact h
  | node a c n ihc ihn =>
    obtain ⟨ha, hc, hn⟩ := h
    simp only [toList_node, List.mem_cons, List.mem_append] at hp
    have hn' := ihn hn fun b hb => hp b (Or.inr (Or.inr hb))
    rw [Forest.editChildren]
    split
    · rename_i hpa
      exact ⟨hp a (Or.inl rfl) hpa c, hg c hc, hn'⟩
    · refine ⟨fun hne => ha fun he => hne (by rw [he]; rfl), ?_, hn'⟩
      exact ihc hc fun b hb => hp b (Or.inr (Or.inl hb))

theorem adopt {before : α → Bool} {t : α × Forest α} (h : f.BearsOnly ok)
    (ht : t.2 ≠ nil → ok t.1) (ht' : t.2.BearsOnly ok) : (f.adopt before t).BearsOnly ok := by
  induction f with
  | nil => exact ⟨ht, ht', trivial⟩
  | node a c n _ ihn =>
    rw [Forest.adopt]
    split
    · exact ⟨ht, ht', h⟩
    · exact ⟨h.1, h.2.1, ihn h.2.2⟩

theorem relabel {g : α → α} (h : f.BearsOnly ok)
    (hg : ∀ a ∈ f.toList, p a = true → ok a → ok (g a)) : (f.relabel p g).BearsOnly ok := by
  induction f with
  | nil => exact h
  | node a c n ihc ihn =>
    obtain ⟨ha, hc, hn⟩ := h
    simp only [toList_node, List.mem_cons, List.mem_append] at hg
    refine ⟨fun hne => ?_, ihc hc fun b hb => hg b (Or.inr (Or.inl hb)),
      ihn hn fun b hb => hg b (Or.inr (Or.inr hb))⟩
    have hok := ha fun he => hne (by rw [he]; rfl)
    split
    · rename_i hpa
      exact hg a (Or.inl rfl) hpa hok
    · exact hok

end BearsOnly

end DomHost.Forest
