import DomHost.Proofs.Forest.Labels

/-!
# Trees behind the edits of a forest

Every tree of an edited forest comes from a tree with the same label, whose children tell which children
it has now, or it is part of what was put in.

* `exists_mem_trees_of_prune`, **`exists_mem_trees_of_editChildren`**: where the trees come from;
* `toList_prune_subset`, `mem_toList_of_editChildren`: where the labels come from;
* `mem_trees_adopt`, `roots_adopt`: a tree that is put among others;
* `find?_relabel`: a label that is changed.
-/

namespace DomHost.Forest

variable {α : Type} {a : α} {p : α → Bool} {f : Forest α} {t v : α × Forest α}

/-- What is left has come from trees that were there, each without what was cut out of it. -/
theorem exists_mem_trees_of_prune (h : v ∈ (f.prune p).trees) :
    ∃ u ∈ f.trees, u.1 = v.1 ∧ v.2 = u.2.prune p := by
  induction f with
  | nil => exact absurd h (by simp [prune, trees])
  | node a c n ihc ihn =>
    simp only [trees, List.mem_cons, List.mem_append]
    rw [prune] at h
    split at h
    · obtain ⟨u, hu, he⟩ := ihn h
      exact ⟨u, Or.inr (Or.inr hu), he⟩
    · simp only [trees, List.mem_cons, List.mem_append] at h
      rcases h with rfl | h | h
      · exact ⟨(a, c), Or.inl rfl, rfl, rfl⟩
      · obtain ⟨u, hu, he⟩ := ihc h
        exact ⟨u, Or.inr (Or.inl hu), he⟩
      · obtain ⟨u, hu, he⟩ := ihn h
        exact ⟨u, Or.inr (Or.inr hu), he⟩

/-- **A label whose children are not edited has those it had**, unless it is part of the edit. -/
theorem exists_mem_trees_of_editChildren {g : Forest α → Forest α}
    (h : v ∈ (f.editChildren p g).trees) :
    ∃ u ∈ f.trees, (u.1 = v.1 ∧ if p v.1 then v.2 = g u.2 else v.2.roots = u.2.roots) ∨
      (p u.1 = true ∧ v ∈ (g u.2).trees) := by
  induction f with
  | nil => exact absurd h (by simp [editChildren, trees])
  | node a c n ihc ihn =>
    simp only [trees, List.mem_cons, List.mem_append]
    rw [editChildren] at h
    split at h
    · rename_i hp
      simp only [trees, List.mem_cons, List.mem_append] at h
      rcases h with rfl | h | h
      · exact ⟨(a, c), Or.inl rfl, Or.inl ⟨rfl, by rw [if_pos hp]⟩⟩
      · exact ⟨(a, c), Or.inl rfl, Or.inr ⟨hp, h⟩⟩
      · obtain ⟨u, hu, he⟩ := ihn h
        exact ⟨u, Or.inr (Or.inr hu), he⟩
    · rename_i hp
      simp only [trees, List.mem_cons, List.mem_append] at h
      rcases h with rfl | h | h
      · exact ⟨(a, c), Or.inl rfl, Or.inl ⟨rfl, by rw [if_neg hp, roots_editChildren]⟩⟩
      · obtain ⟨u, hu, he⟩ := ihc h
        exact ⟨u, Or.inr (Or.inl hu), he⟩
      · obtain ⟨u, hu, he⟩ := ihn h
        exact ⟨u, Or.inr (Or.inr hu), he⟩

theorem toList_prune_subset (f : Forest α) (p : α → Bool) : (f.prune p).toList ⊆ f.toList := by
  intro a ha
  rw [toList_eq_map_trees] at ha ⊢
  obtain ⟨v, hv, rfl⟩ := List.mem_map.mp ha
  obtain ⟨u, hu, he, -⟩ := exists_mem_trees_of_prune hv
  exact he ▸ List.mem_map_of_mem hu

/-- What was not there is among the children that the edit gives. -/
theorem mem_toList_of_editChildren {g : Forest α → Forest α} (h : a ∈ (f.editChildren p g).toList) :
    a ∈ f.toList ∨ ∃ u ∈ f.trees, a ∈ (g u.2).toList := by
  rw [toList_eq_map_trees] at h
  obtain ⟨v, hv, rfl⟩ := List.mem_map.mp h
  obtain ⟨u, hu, ⟨he, -⟩ | ⟨-, hm⟩⟩ := exists_mem_trees_of_editChildren hv
  · exact Or.inl (he ▸ mem_toList_of_mem_trees hu)
  · exact Or.inr ⟨u, hu, mem_toList_of_mem_trees hm⟩

theorem mem_trees_adopt {before : α → Bool} :
    v ∈ (f.adopt before t).trees ↔ v = t ∨ v ∈ t.2.trees ∨ v ∈ f.trees := by
  induction f with
  | nil => simp [adopt, trees]
  | node a c n _ ihn =>
    rw [adopt]
    split
    · simp only [trees, List.mem_cons, List.mem_append]
    · simp only [trees, List.mem_cons, List.mem_append, ihn]
      grind

/-- A tree that is put among others stands in front of the first that passes the test. -/
theorem roots_adopt (before : α → Bool) :
    (f.adopt before t).roots =
      f.roots.takeWhile (!before ·) ++ t.1 :: f.roots.dropWhile (!before ·) := by
  induction f with
  | nil => rfl
  | node a c n _ ihn =>
    rw [adopt]
    split <;> simp_all [roots]

/-- A test that a change of labels does not touch finds the same label, changed. -/
theorem find?_relabel {q : α → Bool} {g : α → α} (h : ∀ a, q (g a) = q a) :
    (f.relabel p g).find? q =
      (f.find? q).map fun t => (if p t.1 then g t.1 else t.1, t.2.relabel p g) := by
  induction f with
  | nil => rfl
  | node a c n ihc ihn =>
    have hq : q (if p a then g a else a) = q a := by
      split
      · exact h a
      · rfl
    rw [relabel, find?_node, find?_node, hq, ihc, ihn]
    split
    · rfl
    · cases c.find? q <;> rfl

end DomHost.Forest
