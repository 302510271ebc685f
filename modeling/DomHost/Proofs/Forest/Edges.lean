import DomHost.Proofs.Forest.Labels

/-!
# Edges of forests

Which label stands right below which, and what the edits of a forest do to these pairs.

* `edges`: the pairs of a label and one of its children;
* **`mem_edges_prune`**: a tree is cut out of a forest with its edges, apart from the one that leads to it;
* `mem_edges_adopt`, **`mem_edges_editChildren`**: a tree that is put under a label.
-/

namespace DomHost.Forest

variable {α : Type} {p : α → Bool} {f : Forest α} {t : α × Forest α} {e : α × α}

/-- The pairs of a label and one of its children. -/
def edges : Forest α → List (α × α)
  | nil => []
  | node a c n => c.roots.map (Prod.mk a) ++ (c.edges ++ n.edges)

/-- The edges of a single tree. -/
def treeEdges (t : α × Forest α) : List (α × α) := t.2.roots.map (Prod.mk t.1) ++ t.2.edges

theorem mem_edges_node {a : α} {c n : Forest α} :
    e ∈ (node a c n).edges ↔ e ∈ treeEdges (a, c) ∨ e ∈ n.edges := by
  simp only [edges, treeEdges, List.mem_append, or_assoc]

theorem mem_treeEdges {a : α} {c : Forest α} :
    e ∈ treeEdges (a, c) ↔ (e.1 = a ∧ e.2 ∈ c.roots) ∨ e ∈ c.edges := by
  obtain ⟨x, y⟩ := e
  simp only [treeEdges, List.mem_append, List.mem_map, Prod.mk.injEq]
  constructor
  · rintro (⟨z, hz, rfl, rfl⟩ | he)
    · exact Or.inl ⟨rfl, hz⟩
    · exact Or.inr he
  · rintro (⟨rfl, hy⟩ | he)
    · exact Or.inl ⟨y, hy, rfl, rfl⟩
    · exact Or.inr he

/-- An edge leads from a label to a child of it. -/
theorem mem_edges_iff : e ∈ f.edges ↔ ∃ t ∈ f.trees, t.1 = e.1 ∧ e.2 ∈ t.2.roots := by
  induction f with
  | nil => simp [edges, trees]
  | node a c n ihc ihn =>
    rw [mem_edges_node, mem_treeEdges, ihc, ihn]
    simp only [trees, List.mem_cons, List.mem_append]
    constructor
    · rintro ((⟨ha, hr⟩ | ⟨t, ht, h⟩) | ⟨t, ht, h⟩)
      · exact ⟨(a, c), Or.inl rfl, ha.symm, hr⟩
      · exact ⟨t, Or.inr (Or.inl ht), h⟩
      · exact ⟨t, Or.inr (Or.inr ht), h⟩
    · rintro ⟨t, rfl | ht | ht, h⟩
      · exact Or.inl (Or.inl ⟨h.1.symm, h.2⟩)
      · exact Or.inl (Or.inr ⟨t, ht, h⟩)
      · exact Or.inr ⟨t, ht, h⟩

/-- Every edge is in one of the trees at the top. -/
theorem mem_edges_iff_tops : e ∈ f.edges ↔ ∃ t ∈ f.tops, e ∈ treeEdges t := by
  induction f with
  | nil => simp [edges, tops]
  | node a c n _ ihn => rw [mem_edges_node, ihn, tops, List.exists_mem_cons_iff]

/-- An edge leads to a label. -/
theorem snd_mem_toList (h : e ∈ f.edges) : e.2 ∈ f.toList := by
  obtain ⟨t, ht, -, hr⟩ := mem_edges_iff.mp h
  exact mem_toList_of_mem_labels ht (List.mem_cons_of_mem _ (mem_toList_of_mem_roots hr))

theorem snd_mem_of_treeEdges (h : e ∈ treeEdges t) : e.2 ∈ t.2.toList := by
  obtain ⟨a, c⟩ := t
  rcases mem_treeEdges.mp h with ⟨-, hr⟩ | he
  · exact mem_toList_of_mem_roots hr
  · exact snd_mem_toList he

/-! ## Cutting a tree out -/

/-- **A tree is cut out with its edges, and the edge that leads to it is gone.** -/
theorem mem_edges_prune (h1 : f.toList.countP p ≤ 1) (h : f.find? p = some t) :
    e ∈ f.edges ∧ ¬ p e.2 = true ↔ e ∈ (f.prune p).edges ∨ e ∈ treeEdges t := by
  induction f with
  | nil => simp [find?] at h
  | node a c n ihc ihn =>
    rw [toList_node, List.countP_cons, List.countP_append] at h1
    rw [find?_node] at h
    rw [prune, mem_edges_node]
    have hfree : ∀ {g : Forest α}, g.toList.countP p = 0 → e ∈ g.edges → ¬ p e.2 = true :=
      fun hz he => not_of_countP_eq_zero hz _ (snd_mem_toList he)
    by_cases hp : p a = true
    · rw [if_pos hp] at h h1
      obtain rfl := Option.some.inj h
      have hc : c.toList.countP p = 0 := by omega
      have hn : n.toList.countP p = 0 := by omega
      rw [if_pos hp, prune_eq_self (not_of_countP_eq_zero hn)]
      constructor
      · rintro ⟨he | he, -⟩
        · exact Or.inr he
        · exact Or.inl he
      · rintro (he | he)
        · exact ⟨Or.inr he, hfree hn he⟩
        · exact ⟨Or.inl he, not_of_countP_eq_zero hc _ (snd_mem_of_treeEdges he)⟩
    · rw [if_neg hp] at h h1
      rw [if_neg hp, mem_edges_node, mem_treeEdges, mem_treeEdges, roots_prune, List.mem_filter,
        Bool.not_eq_true']
      cases hc : c.find? p with
      | some t' =>
        have hpos := countP_pos_of_find? hc
        rw [hc, Option.some_or] at h
        obtain rfl := Option.some.inj h
        have hn : n.toList.countP p = 0 := by omega
        have hih := ihc (by omega) hc
        have hnot : e ∈ n.edges → ¬ p e.2 = true := hfree hn
        rw [prune_eq_self (f := n) (not_of_countP_eq_zero hn)]
        grind
      | none =>
        rw [hc, Option.none_or] at h
        have hz : c.toList.countP p = 0 := List.countP_eq_zero.mpr (find?_eq_none.mp hc)
        have hih := ihn (by omega) h
        have hnot : e ∈ c.edges → ¬ p e.2 = true := hfree hz
        have hroot : e.2 ∈ c.roots → ¬ p e.2 = true := fun hr =>
          not_of_countP_eq_zero hz _ (mem_toList_of_mem_roots hr)
        rw [prune_eq_self (f := c) (find?_eq_none.mp hc)]
        grind

/-! ## Putting a tree in -/

theorem mem_roots_adopt {before : α → Bool} {a : α} :
    a ∈ (f.adopt before t).roots ↔ a = t.1 ∨ a ∈ f.roots := by
  induction f with
  | nil => simp [adopt, roots]
  | node b c n _ ihn =>
    rw [adopt]
    split
    · simp [roots]
    · simp only [roots, List.mem_cons, ihn]
      exact or_left_comm

theorem mem_edges_adopt {before : α → Bool} :
    e ∈ (f.adopt before t).edges ↔ e ∈ treeEdges t ∨ e ∈ f.edges := by
  induction f with
  | nil => simp [adopt, mem_edges_node]
  | node b c n _ ihn =>
    rw [adopt]
    split
    · rw [mem_edges_node]
    · rw [mem_edges_node, mem_edges_node, ihn]
      exact or_left_comm

/-- **A tree that is put under a label brings its edges and one more.** -/
theorem mem_edges_editChildren {before : α → Bool} {a : α} {c : Forest α}
    (h1 : f.toList.countP p ≤ 1) (h : f.find? p = some (a, c)) :
    e ∈ (f.editChildren p (·.adopt before t)).edges ↔
      e ∈ f.edges ∨ e = (a, t.1) ∨ e ∈ treeEdges t := by
  induction f with
  | nil => simp [find?] at h
  | node b d n ihd ihn =>
    rw [toList_node, List.countP_cons, List.countP_append] at h1
    rw [find?_node] at h
    rw [editChildren]
    by_cases hp : p b = true
    · rw [if_pos hp] at h h1
      obtain ⟨rfl, rfl⟩ := Prod.mk.inj (Option.some.inj h)
      have hnew : e = (b, t.1) ↔ e.1 = b ∧ e.2 = t.1 := Prod.ext_iff
      rw [if_pos hp, editChildren_eq_self (not_of_countP_eq_zero (by omega)), mem_edges_node,
        mem_edges_node, mem_treeEdges, mem_treeEdges, mem_roots_adopt, mem_edges_adopt, hnew]
      grind
    · rw [if_neg hp] at h h1
      rw [if_neg hp, mem_edges_node, mem_edges_node, mem_treeEdges, mem_treeEdges, roots_editChildren]
      cases hd : d.find? p with
      | some t' =>
        have hpos := countP_pos_of_find? hd
        rw [hd, Option.some_or] at h
        obtain rfl := Option.some.inj h
        rw [editChildren_eq_self (f := n) (not_of_countP_eq_zero (by omega)), ihd (by omega) hd]
        grind
      | none =>
        rw [hd, Option.none_or] at h
        rw [editChildren_eq_self (f := d) (find?_eq_none.mp hd), ihn (by omega) h]
        grind

end DomHost.Forest
