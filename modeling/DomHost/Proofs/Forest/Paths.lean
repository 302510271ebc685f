import DomHost.Proofs.Forest.Labels

/-!
# Ways up a forest

Where a label of a forest stands: at the top or right below one other label, and how the way up from
it goes on.

* **`perm_roots_trees`**: every label is either at the top or a child, and is so once;
* `Climbs`: the ways from a label up to the top;
* **`climbs_of_pathTo?`**: what `pathTo?` finds is such a way;
* `mem_pathTo?`: it leads through every tree that the label is in;
* `exists_top`: every tree lies in a top-level tree.
-/

namespace DomHost.Forest

variable {α : Type}

/-! ## Children -/

/-- **Every label stands at the top or below a label, in one place only.** -/
theorem perm_roots_trees (f : Forest α) :
    f.toList.Perm (f.roots ++ f.trees.flatMap (·.2.roots)) := by
  induction f with
  | nil => exact List.Perm.refl _
  | node a c n ihc ihn =>
    rw [toList_node, roots, trees, List.flatMap_cons, List.flatMap_append, List.cons_append]
    refine List.Perm.cons a ?_
    refine (ihc.append ihn).trans ?_
    rw [List.append_assoc]
    refine List.Perm.trans ?_ (List.perm_append_comm_assoc _ _ _)
    exact (List.perm_append_comm_assoc _ _ _).append_left c.roots

/-- Every tree lies in a top-level tree. -/
theorem exists_top {f : Forest α} {t : α × Forest α} (h : t ∈ f.trees) :
    ∃ u ∈ f.tops, ∀ a ∈ labels t, a ∈ labels u := by
  induction f with
  | nil => simp [trees] at h
  | node a c n _ ihn =>
    simp only [trees, List.mem_cons, List.mem_append] at h
    simp only [tops, List.mem_cons]
    rcases h with rfl | h | h
    · exact ⟨_, Or.inl rfl, fun _ hb => hb⟩
    · exact ⟨_, Or.inl rfl, fun b hb => List.mem_cons_of_mem _ (mem_toList_of_mem_labels h hb)⟩
    · obtain ⟨u, hu, hl⟩ := ihn h
      exact ⟨u, Or.inr hu, hl⟩

/-! ## Ways up -/

/-- The ways from a label up to the top of a forest. -/
inductive Climbs (f : Forest α) : List α → Prop
  | top {a : α} (h : a ∈ f.roots) : Climbs f [a]
  | up {a b : α} {c : Forest α} {path : List α} (hb : (b, c) ∈ f.trees) (ha : a ∈ c.roots)
      (h : Climbs f (b :: path)) : Climbs f (a :: b :: path)

theorem Climbs.mem_toList {f : Forest α} {path : List α} (h : f.Climbs path) :
    ∀ a ∈ path, a ∈ f.toList := by
  induction h with
  | top ha =>
    intro b hb
    rw [List.mem_singleton.mp hb]
    exact mem_toList_of_mem_roots ha
  | up hb ha _ ih =>
    refine List.forall_mem_cons.mpr ⟨mem_toList_of_mem_labels hb ?_, ih⟩
    exact List.mem_cons_of_mem _ (mem_toList_of_mem_roots ha)

variable {p : α → Bool}

theorem pathTo?_node (a : α) (c n : Forest α) (above : List α) :
    (node a c n).pathTo? p above =
      if p a then some (a :: above) else (c.pathTo? p (a :: above)).or (n.pathTo? p above) := by
  rw [pathTo?]
  split
  · rfl
  · cases c.pathTo? p (a :: above) <;> rfl

/-- Other labels in the same places, which pass the test as before. -/
theorem pathTo?_relabel {q : α → Bool} {g : α → α} (hp : ∀ a, p (if q a then g a else a) = p a)
    (f : Forest α) (above : List α) :
    (f.relabel q g).pathTo? p (above.map fun a => if q a then g a else a) =
      (f.pathTo? p above).map (List.map fun a => if q a then g a else a) := by
  induction f generalizing above with
  | nil => rfl
  | node a c n ihc ihn =>
    have hc := ihc (a :: above)
    rw [List.map_cons] at hc
    rw [relabel, pathTo?_node, pathTo?_node, hp, hc, ihn]
    split
    · rfl
    · cases c.pathTo? p (a :: above) <;> rfl

theorem pathTo?_eq_none {f : Forest α} {above : List α} :
    f.pathTo? p above = none ↔ ∀ a ∈ f.toList, ¬ p a = true := by
  induction f generalizing above with
  | nil => simp [pathTo?]
  | node a c n ihc ihn =>
    rw [pathTo?_node]
    split
    · simp_all
    · simp [Option.or_eq_none_iff, or_imp, forall_and, *]

/-- **The way up that is found goes from a label that passes the test to the top.** -/
theorem climbs_of_pathTo? {f : Forest α} {path : List α} (h : f.pathTo? p [] = some path) :
    f.Climbs path ∧ ∃ a rest, path = a :: rest ∧ p a = true := by
  suffices H : ∀ (g : Forest α) (above : List α), (∀ t ∈ g.trees, t ∈ f.trees) →
      (∀ a ∈ g.roots, f.Climbs (a :: above)) → ∀ path, g.pathTo? p above = some path →
      f.Climbs path ∧ ∃ a rest, path = a :: rest ∧ p a = true from
    H f [] (fun _ ht => ht) (fun _ ha => .top ha) path h
  intro g
  induction g with
  | nil => intro above _ _ path h; simp [pathTo?] at h
  | node a c n ihc ihn =>
    intro above ht hr path h
    simp only [trees, List.mem_cons, List.mem_append] at ht
    simp only [roots, List.mem_cons] at hr
    rw [pathTo?_node] at h
    have ha := hr a (Or.inl rfl)
    split at h
    · rename_i hp
      obtain rfl := Option.some.inj h
      exact ⟨ha, a, above, rfl, hp⟩
    · rcases Option.or_eq_some_iff.mp h with h | ⟨_, h⟩
      · exact ihc (a :: above) (fun t h => ht t (Or.inr (Or.inl h)))
          (fun b hb => .up (ht (a, c) (Or.inl rfl)) hb ha) path h
      · exact ihn above (fun t h => ht t (Or.inr (Or.inr h)))
          (fun b hb => hr b (Or.inr hb)) path h

/-- The way down to a label names its labels in the order in which they are listed. -/
theorem reverse_sublist_of_pathTo? {f : Forest α} {above path : List α}
    (h : f.pathTo? p above = some path) : path.reverse.Sublist (above.reverse ++ f.toList) := by
  induction f generalizing above with
  | nil => simp [pathTo?] at h
  | node a c n ihc ihn =>
    rw [pathTo?_node] at h
    rw [toList_node]
    split at h
    · obtain rfl := Option.some.inj h
      rw [List.reverse_cons]
      exact ((List.nil_sublist _).cons_cons a).append_left _
    · rcases Option.or_eq_some_iff.mp h with h | ⟨_, h⟩
      · have hs := ihc h
        rw [List.reverse_cons, List.append_assoc] at hs
        exact hs.trans (((List.sublist_append_left _ _).cons_cons a).append_left _)
      · refine (ihn h).trans (List.Sublist.append_left ?_ _)
        exact (List.sublist_append_right _ _).cons a

theorem suffix_of_pathTo? {f : Forest α} {above path : List α}
    (h : f.pathTo? p above = some path) : above <:+ path := by
  induction f generalizing above with
  | nil => simp [pathTo?] at h
  | node a c n ihc ihn =>
    rw [pathTo?_node] at h
    split at h
    · obtain rfl := Option.some.inj h
      exact List.suffix_cons a above
    · rcases Option.or_eq_some_iff.mp h with h | ⟨_, h⟩
      · exact (List.suffix_cons a above).trans (ihc h)
      · exact ihn h

theorem exists_mem_of_pathTo? {f : Forest α} {above path : List α} (h : f.pathTo? p above = some path) :
    ∃ m ∈ f.toList, p m = true := by
  by_contra hn
  push Not at hn
  rw [pathTo?_eq_none.mpr hn] at h
  cases h

/-- The way up from a label leads through trees that the label is in. -/
theorem exists_tree_of_mem_pathTo? {f : Forest α} {above path : List α}
    (h : f.pathTo? p above = some path) {a : α} (ha : a ∈ path) :
    a ∈ above ∨ ∃ t ∈ f.trees, t.1 = a ∧ ∃ m ∈ labels t, p m = true := by
  induction f generalizing above with
  | nil => simp [pathTo?] at h
  | node b c n ihc ihn =>
    rw [pathTo?_node] at h
    simp only [trees, List.mem_cons, List.mem_append]
    split at h
    · rename_i hb
      obtain rfl := Option.some.inj h
      refine (List.mem_cons.mp ha).symm.imp id ?_
      rintro rfl
      exact ⟨_, .inl rfl, rfl, _, List.mem_cons_self, hb⟩
    · rcases Option.or_eq_some_iff.mp h with h | ⟨_, h⟩
      · rcases ihc h with hm | ⟨t, ht, hta, hm⟩
        · refine (List.mem_cons.mp hm).symm.imp id ?_
          rintro rfl
          obtain ⟨m, hm, hpm⟩ := exists_mem_of_pathTo? h
          exact ⟨_, .inl rfl, rfl, m, List.mem_cons_of_mem _ hm, hpm⟩
        · exact .inr ⟨t, .inr (.inl ht), hta, hm⟩
      · rcases ihn h with hm | ⟨t, ht, hta, hm⟩
        · exact .inl hm
        · exact .inr ⟨t, .inr (.inr ht), hta, hm⟩

/-- **The way up from a label leads through every tree that the label is in.** -/
theorem mem_pathTo? {f : Forest α} {q : α → Bool} {t : α × Forest α} {above path : List α}
    (h1 : f.toList.countP p ≤ 1) (ht : f.find? q = some t) {m : α} (hm : m ∈ labels t)
    (hpm : p m = true) (h : f.pathTo? p above = some path) : t.1 ∈ path := by
  induction f generalizing above with
  | nil => simp [find?] at ht
  | node a c n ihc ihn =>
    rw [toList_node, List.countP_cons, List.countP_append] at h1
    rw [find?_node] at ht
    rw [pathTo?_node] at h
    by_cases hq : q a = true
    · rw [if_pos hq] at ht
      obtain rfl := Option.some.inj ht
      split at h
      · obtain rfl := Option.some.inj h
        exact List.mem_cons_self
      · rename_i hpa
        have hmc : m ∈ c.toList := by
          rcases List.mem_cons.mp hm with rfl | hm
          · exact absurd hpm hpa
          · exact hm
        rcases Option.or_eq_some_iff.mp h with h | ⟨h, _⟩
        · exact (suffix_of_pathTo? h).subset List.mem_cons_self
        · exact absurd hpm (pathTo?_eq_none.mp h m hmc)
    · rw [if_neg hq] at ht
      rcases Option.or_eq_some_iff.mp ht with ht | ⟨_, ht⟩
      · have hmc : m ∈ c.toList := mem_toList_of_mem_labels (mem_trees_of_find? ht).1 hm
        have hpos : 0 < c.toList.countP p := List.countP_pos_iff.mpr ⟨m, hmc, hpm⟩
        have hpa : ¬ p a = true := fun hpa => by simp only [hpa, if_true] at h1; omega
        rw [if_neg hpa] at h h1
        rcases Option.or_eq_some_iff.mp h with h | ⟨h, _⟩
        · exact ihc (by omega) ht h
        · exact absurd hpm (pathTo?_eq_none.mp h m hmc)
      · have hmn : m ∈ n.toList := mem_toList_of_mem_labels (mem_trees_of_find? ht).1 hm
        have hpos : 0 < n.toList.countP p := List.countP_pos_iff.mpr ⟨m, hmn, hpm⟩
        have hpa : ¬ p a = true := fun hpa => by simp only [hpa, if_true] at h1; omega
        rw [if_neg hpa] at h h1
        rw [pathTo?_eq_none.mpr (not_of_countP_eq_zero (show c.toList.countP p = 0 by omega)),
          Option.none_or] at h
        exact ihn (by omega) ht h

end DomHost.Forest
