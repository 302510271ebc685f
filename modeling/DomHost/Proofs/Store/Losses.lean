import DomHost.Proofs.Store.Accounts

/-!
# Nodes that are gone

A reference that was taken back is not handed out again at once: its cell is a generation further on. So
when nodes are removed and then one is created, it has none of their references.

* `Cells.Hold.draw_releaseAll_notMem`: the reference that is handed out after others were taken back;
* `Store.Loses`: some nodes are gone, and their cells were taken back;
* **`Store.Loses.not_live_draw`**: the next node to be created was not there before;
* `Store.ends_setTextContent_new`: the only node that the text of an element brings.
-/

namespace DomHost

/-! ## Cells -/

namespace Cells

variable {c : Cells} {rs refs : List NodeRef}

/-- A cell that is not taken back stays in its generation. -/
theorem Hold.generation_releaseAll (h : c.Hold (rs ++ refs)) {i : Nat} (hi : ∀ g, NodeRef.cell i g ∉ rs) :
    (rs.foldl Cells.release c).generations.getD i 0 = c.generations.getD i 0 := by
  induction rs generalizing c with
  | nil => rfl
  | cons r rs ih =>
    rw [List.foldl_cons, ih h.release fun g hg => hi g (List.mem_cons_of_mem r hg)]
    cases r with
    | nowhere => rfl
    | cell j g =>
      have hne : j ≠ i := fun he => hi g (he ▸ List.mem_cons_self)
      rw [generation_release (h.eq_current List.mem_cons_self).2.1, if_neg hne]

/-- No cell answers to a reference that was taken back. -/
theorem Hold.current_releaseAll_notMem (h : c.Hold (rs ++ refs)) (i : Nat) :
    (rs.foldl Cells.release c).current i ∉ rs := by
  induction rs generalizing c with
  | nil => exact List.not_mem_nil
  | cons r rs ih =>
    rw [List.foldl_cons, List.mem_cons, not_or]
    refine ⟨fun he => ?_, ih h.release⟩
    cases r with
    | nowhere => exact NodeRef.noConfusion he
    | cell j g =>
      obtain ⟨rfl, hg⟩ := NodeRef.cell.inj he
      obtain ⟨hcurrent, hsize, -⟩ := h.eq_current List.mem_cons_self
      -- no other reference is to this cell, so it is one generation further on
      have hother : ∀ g', NodeRef.cell i g' ∉ rs := fun g' hg' => by
        have hm : NodeRef.cell i g' ∈ rs ++ refs := List.mem_append_left _ hg'
        have hsame := (h.eq_current (List.mem_cons_of_mem _ hm)).1.trans hcurrent.symm
        exact (List.nodup_cons.mp h.nodup).1 (hsame ▸ hm)
      rw [h.release.generation_releaseAll hother, generation_release hsize, if_pos rfl,
        (NodeRef.cell.inj hcurrent).2] at hg
      simp at hg

/-- The cell that is drawn next answers in its current generation. -/
theorem draw_eq_current (c : Cells) : ∃ i, c.draw.1 = c.current i := by
  unfold draw
  split
  · exact ⟨_, rfl⟩
  · exact ⟨c.generations.size, by simp [current]⟩

/-- **The reference that is handed out next is neither in use nor was it taken back just now.** -/
theorem Hold.draw_releaseAll_notMem (h : c.Hold (rs ++ refs)) :
    (rs.foldl Cells.release c).draw.1 ∉ rs ++ refs := by
  intro hm
  rcases List.mem_append.mp hm with hm | hm
  · obtain ⟨i, hi⟩ := (rs.foldl Cells.release c).draw_eq_current
    exact h.current_releaseAll_notMem i (hi ▸ hm)
  · exact (List.nodup_cons.mp h.releaseAll.draw.nodup).1 hm

end Cells

/-! ## Stores -/

namespace Store

variable {s s' : Store} {r x : NodeRef}

/-- Some nodes are gone, and their cells were taken back. -/
def Loses (s s' : Store) : Prop :=
  ∃ rs : List NodeRef, s'.cells = rs.foldl Cells.release s.cells ∧ s.refs.Perm (rs ++ s'.refs)

theorem lasting_loses : Lasting Loses where
  refl := fun _ => ⟨[], rfl, List.Perm.refl _⟩
  trans := fun ⟨rs, hc, hp⟩ ⟨rs', hc', hp'⟩ =>
    ⟨rs ++ rs', by rw [hc', hc, List.foldl_append],
      hp.trans (List.append_assoc rs rs' _ ▸ hp'.append_left rs)⟩

theorem Retains.loses (h : s.Retains s') (hs : s.Distinct) : s.Loses s' :=
  ⟨[], (h hs).1, (h hs).2.symm⟩

theorem Distinct.loses_without (h : s.Distinct) (r : NodeRef) : s.Loses (s.without r) :=
  ⟨s.descendants r, rfl, h.perm_without r⟩

namespace Loses

theorem live (h : s.Loses s') (hx : s'.Live x) : s.Live x :=
  have ⟨rs, _, hp⟩ := h
  hp.mem_iff.mpr (List.mem_append_right rs hx)

/-- **When nodes are gone, the next node to be created was not there before.** -/
theorem not_live_draw (h : s.Loses s') (hs : s.WellFormed) : ¬ s.Live s'.cells.draw.1 := by
  obtain ⟨rs, hc, hp⟩ := h
  rw [hc, Live, hp.mem_iff]
  exact (hs.cells.perm hp.symm).draw_releaseAll_notMem

end Loses

/-- **A text brings one node at most, the next one to be created.** -/
theorem ends_setTextContent_new (h : s.WellFormed) (r : NodeRef) (text : String) :
    Ends (setTextContent r text) s (fun _ s' => ∀ x, s'.Live x → s.Live x ∨ x = s.cells.draw.1)
      (· = s) := by
  have hsame : ∀ {s'}, s.Retains s' → ∀ x, s'.Live x → s.Live x ∨ x = s.cells.draw.1 :=
    fun hs x hx => Or.inl ((hs h.distinct).2.mem_iff.mp hx)
  unfold setTextContent
  refine ((ends_require s r).mono (fun _ _ he => he) fun _ he => he).bind ?_
  rintro d s ⟨rfl, hd⟩
  cases d with
  | text t => exact Ends.modify (hsame (retains_setData s r _))
  | comment t => exact Ends.modify (hsame (retains_setData s r _))
  | document => exact Ends.pure (hsame (lasting_retains.refl s))
  | element e =>
    have hs := (h.guards.scatter (r := r) (by simp [refsOf])).wellFormed
    obtain ⟨c, ht⟩ := exists_tree?_of_get? hd
    have hd' : (s.scatter r).get? r = some (.element e) := by
      rw [get?, tree?_scatter h.distinct ht]
      rfl
    refine (Ends.modify (f := fun s : Store => s.scatter r) (Q := fun _ s' => s' = s.scatter r) rfl).bind ?_
    rintro _ _ rfl
    refine Ends.ite (fun _ => Ends.pure (hsame (retains_scatter s r))) fun _ => Ends.modify ?_
    have hscatter := retains_scatter s r h.distinct
    have hleaf : Plantable (.text text) .nil := plantable_leaf rfl
    have hnew := (hs.guards.plant hleaf).wellFormed.distinct
    have hplace := retains_place (hs.insertable_create hd' rfl rfl) none hnew
    intro x hx
    rcases List.mem_cons.mp (hplace.2.mem_iff.mp hx) with rfl | hx
    · rw [← hscatter.1]
      exact Or.inr rfl
    · exact Or.inl (hscatter.2.mem_iff.mp hx)

end Store

end DomHost
