import DomHost.Proofs.Arena.Cells
import DomHost.Proofs.Store.Traversal

/-!
# Links that depict a tree

An arena depicts a store when both have the same nodes in the same cells and every link of the arena is the neighbour
that the tree has there. Then the lists that are read off along the links are those of the tree.

* `Store.linkedNode`: a node of a tree with its neighbours as links;
* `Arena.Depicts`: an arena has the nodes of a store, with these links;
* `Arena.Depicts.parent?` and its like: a link is the neighbour;
* **`Arena.Depicts.ancestors`**, **`Arena.Depicts.children`**, **`Arena.Depicts.descendants`**: what is reached along
  the links.
-/

namespace DomHost

/-- A node of a tree with its neighbours as links. -/
def Store.linkedNode (s : Store) (r : NodeRef) (data : NodeData) : LinkedNode where
  data := data
  parent := (s.parent? r).getD .nowhere
  firstChild := (s.firstChild? r).getD .nowhere
  lastChild := (s.lastChild? r).getD .nowhere
  previousSibling := (s.previousSibling? r).getD .nowhere
  nextSibling := (s.nextSibling? r).getD .nowhere

namespace Arena

open Store

/-- An arena has the nodes of a store in the same cells, each tied to its neighbours in the tree. -/
structure Depicts (a : Arena) (s : Store) : Prop where
  wellFormed : s.WellFormed
  cells : a.cells = s.cells
  get? : ∀ r, a.get? r = (s.get? r).map (s.linkedNode r)

variable {a : Arena} {s s' : Store} {r p x root : NodeRef} {o : Option NodeRef} {d : NodeData}
  {l : List NodeRef} {rounds : Nat}

/-- A new arena depicts a new store. -/
theorem depicts_new : Arena.new.Depicts .new where
  wellFormed := wellFormed_new
  cells := by simp [Arena.cells, Arena.new, Store.new]
  get? r := by
    by_cases hr : r = .root
    · subst hr
      decide
    · have hnone : Store.new.get? r = none := by
        rw [← Option.not_isSome_iff_eq_none, get?_isSome_iff]
        exact fun hl => hr (List.mem_singleton.mp hl)
      rw [hnone]
      cases r with
      | nowhere => rfl
      | cell i g =>
        cases i with
        | zero =>
          have hg : ¬ (0 : UInt32) = g := fun he => hr (he ▸ rfl)
          exact if_neg hg
        | succ i => rfl

theorem toOption_getD (ho : o ≠ some .nowhere) : (o.getD .nowhere).toOption = o := by
  cases o with
  | none => rfl
  | some r =>
    cases r with
    | nowhere => exact absurd rfl ho
    | cell i g => rfl

namespace Depicts

variable (h : a.Depicts s)
include h

theorem capacity : a.capacity = s.capacity := by rw [capacity_eq, h.cells, Store.capacity]

theorem isSome_iff : (a.get? r).isSome ↔ s.Live r := by
  rw [h.get?, Option.isSome_map, get?_isSome_iff]

theorem get?_of_some (hd : s.get? r = some d) : a.get? r = some (s.linkedNode r d) := by
  rw [h.get?, hd, Option.map_some]

theorem get?_of_none (hd : s.get? r = none) : a.get? r = none := by
  rw [h.get?, hd, Option.map_none]

/-! ## One link -/

omit h in
theorem ne_nowhere (hs : s.WellFormed) (hx : s.Live x) : x ≠ .nowhere := by
  rintro rfl
  exact hs.cells.nowhere_notMem hx

/-- A link is a neighbour, if that is what it stands for and if it leads between live nodes. -/
theorem link_eq {g : LinkedNode → NodeRef} {f : NodeRef → Option NodeRef}
    (hg : ∀ d, g (s.linkedNode r d) = (f r).getD .nowhere) (hf : ∀ x, f r = some x → s.Live r ∧ s.Live x) :
    (a.get? r).bind (fun n => (g n).toOption) = f r := by
  cases hd : s.get? r with
  | none =>
    rw [h.get?_of_none hd, Option.bind_none]
    cases hr : f r with
    | none => rfl
    | some x =>
      have hlive := get?_isSome_iff.mpr (hf x hr).1
      rw [hd] at hlive
      cases hlive
  | some d =>
    rw [h.get?_of_some hd, Option.bind_some, hg]
    exact toOption_getD fun hr => ne_nowhere h.wellFormed (hf _ hr).2 rfl

theorem parent? (r : NodeRef) : a.parent? r = s.parent? r :=
  h.link_eq (g := (·.parent)) (f := s.parent?) (fun _ => rfl) fun _ hx => h.wellFormed.live_of_link (.inl hx)

theorem firstChild? (r : NodeRef) : a.firstChild? r = s.firstChild? r :=
  h.link_eq (g := (·.firstChild)) (f := s.firstChild?) (fun _ => rfl) fun _ hx =>
    h.wellFormed.live_of_link (.inr (.inl hx))

theorem lastChild? (r : NodeRef) : a.lastChild? r = s.lastChild? r :=
  h.link_eq (g := (·.lastChild)) (f := s.lastChild?) (fun _ => rfl) fun _ hx =>
    h.wellFormed.live_of_link (.inr (.inr (.inl hx)))

theorem nextSibling? (r : NodeRef) : a.nextSibling? r = s.nextSibling? r :=
  h.link_eq (g := (·.nextSibling)) (f := s.nextSibling?) (fun _ => rfl) fun _ hx =>
    h.wellFormed.live_of_link (.inr (.inr (.inr (.inl hx))))

theorem previousSibling? (r : NodeRef) : a.previousSibling? r = s.previousSibling? r :=
  h.link_eq (g := (·.previousSibling)) (f := s.previousSibling?) (fun _ => rfl) fun _ hx =>
    h.wellFormed.live_of_link (.inr (.inr (.inr (.inr hx))))

/-! ## Along a link -/

/-- There are no more nodes than cells. -/
theorem length_le_capacity (hn : l.Nodup) (hl : ∀ x ∈ l, s.Live x) : l.length ≤ a.capacity := by
  have hle := (hn.subperm hl).length_le
  rw [h.wellFormed.cells.length] at hle
  rw [h.capacity, Store.capacity]
  omega

theorem length_ancestors_le (r : NodeRef) : (s.ancestors r).length ≤ a.capacity :=
  h.length_le_capacity (h.wellFormed.distinct.nodup_ancestors r) fun _ hx => live_of_mem_ancestors hx

theorem ancestors (r : NodeRef) : a.ancestors r = s.ancestors r := by
  by_cases hr : s.Live r
  · have hsome : (a.get? r).map (fun _ => r) = some r := by
      obtain ⟨n, hn⟩ := Option.isSome_iff_exists.mp (h.isSome_iff.mpr hr)
      rw [hn, Option.map_some]
    have hchain := h.wellFormed.chain_parent? hr
    rw [← funext h.parent?] at hchain
    rw [Arena.ancestors, hsome]
    exact follow_eq_of_chain hchain (h.length_ancestors_le r)
  · have hnone : a.get? r = none := by
      rwa [← Option.not_isSome_iff_eq_none, h.isSome_iff]
    rw [Arena.ancestors, hnone, ancestors_eq_nil hr]
    exact follow_eq_of_chain .stop (Nat.zero_le _)

theorem isInclusiveAncestor (r x : NodeRef) : a.isInclusiveAncestor r x = s.isInclusiveAncestor r x := by
  rw [Arena.isInclusiveAncestor, Store.isInclusiveAncestor, h.ancestors]

theorem length_children_le (p : NodeRef) : (s.children p).length ≤ a.capacity :=
  h.length_le_capacity (h.wellFormed.nodup_children p) fun _ hx => (live_of_child hx).2

theorem children (p : NodeRef) : a.children p = s.children p := by
  have hchain := h.wellFormed.chain_nextSibling? p
  rw [← funext h.nextSibling?] at hchain
  rw [Arena.children, h.firstChild?]
  exact follow_eq_of_chain hchain (h.length_children_le p)

/-- The siblings behind a node, along the links. -/
theorem chain_following (hp : s.parent? r = some p) :
    Chain a.nextSibling? (a.nextSibling? r) (s.following r) ∧ (s.following r).length < a.capacity := by
  have hr := h.wellFormed.parent?_eq_some_iff.mp hp
  obtain ⟨front, back, hc⟩ := List.append_of_mem hr
  have hchain := h.wellFormed.chain_nextSibling? p
  have hlen := h.length_children_le p
  rw [← funext h.nextSibling?, hc] at hchain
  rw [hc, List.length_append, List.length_cons] at hlen
  rw [h.wellFormed.following_eq hc]
  exact ⟨hchain.behind, by omega⟩

/-! ## Walks -/

/-- One round of a climb along the links is one in the tree. -/
theorem climb_succ (root r : NodeRef) (rounds : Nat) :
    a.climb root (rounds + 1) r = match s.climbRound root r with
      | .inl p => a.climb root rounds p
      | .inr o => o := by
  have hnext := h.nextSibling? r
  have hparent := h.parent? r
  rw [climb, climbRound]
  by_cases hr : r = root
  · rw [if_pos hr, if_pos hr]
  · rw [if_neg hr, if_neg hr]
    cases hd : s.get? r with
    | none =>
      rw [h.get?_of_none hd]
      rfl
    | some d =>
      rw [Arena.nextSibling?, h.get?_of_some hd, Option.bind_some] at hnext
      rw [Arena.parent?, h.get?_of_some hd, Option.bind_some] at hparent
      rw [h.get?_of_some hd]
      simp only [hnext, hparent, Option.isNone_some, Bool.false_eq_true, if_false]
      cases s.nextSibling? r with
      | some next => rfl
      | none => cases s.parent? r <;> rfl

omit h in
/-- A climb goes on from the parent. -/
theorem parent?_of_climbRound (hc : s.climbRound root r = .inl p) : s.parent? r = some p := by
  unfold climbRound at hc
  split at hc
  · cases hc
  · split at hc
    · cases hc
    · split at hc
      · cases hc
      · split at hc
        · cases hc
          assumption
        · cases hc

theorem climb_eq (hc : s.Climbs root r o) (hr : s.Live r) (hl : (s.ancestors r).length ≤ rounds) :
    a.climb root rounds r = o := by
  induction hc generalizing rounds with
  | @stop r o hstop =>
    have hpos := List.length_pos_of_mem (mem_ancestors_self hr)
    obtain ⟨rounds, rfl⟩ := Nat.exists_eq_add_one_of_ne_zero (n := rounds) (by omega)
    rw [h.climb_succ, hstop]
  | @up r p o hup _ ih =>
    have hp := parent?_of_climbRound hup
    rw [h.wellFormed.ancestors_of_parent? hp, List.length_cons] at hl
    obtain ⟨rounds, rfl⟩ := Nat.exists_eq_add_one_of_ne_zero (n := rounds) (by omega)
    rw [h.climb_succ, hup]
    exact ih (h.wellFormed.parent?_isSome hp).2 (Nat.le_of_succ_le_succ hl)

theorem walk_eq (hw : s.WalksFrom root o l) (hl : l.length ≤ rounds) : a.walk root rounds o = l := by
  induction hw generalizing rounds with
  | done => cases rounds <;> rfl
  | gone hr =>
    cases rounds with
    | zero => rfl
    | succ rounds => rw [walk, h.get?_of_none (Option.isNone_iff_eq_none.mp hr)]
  | @pass r o rest hr hn _ ih =>
    obtain ⟨rounds, rfl⟩ := Nat.exists_eq_add_one_of_ne_zero (n := rounds) (Nat.ne_zero_of_lt hl)
    obtain ⟨d, hd⟩ := Option.isSome_iff_exists.mp hr
    have hlive := get?_isSome_iff.mp hr
    have hrest := ih (Nat.le_of_succ_le_succ hl)
    have hfirst := h.firstChild? r
    rw [Arena.firstChild?, h.get?_of_some hd, Option.bind_some] at hfirst
    rw [walk, h.get?_of_some hd]
    simp only [hfirst]
    cases hn with
    | down hc => simp only [hc, hrest]
    | climb hc hclimb => simp only [hc, h.climb_eq hclimb hlive (h.length_ancestors_le r), hrest]

theorem descendants (r : NodeRef) : a.descendants r = s.descendants r := by
  have hwalk := h.wellFormed.walks_descendants r
  have hstart : (a.get? r).map (fun _ => r) = if (s.get? r).isSome then some r else none := by
    rw [h.get?]
    cases s.get? r <;> rfl
  rw [Arena.descendants, hstart]
  refine h.walk_eq hwalk (h.length_le_capacity (h.wellFormed.distinct.nodup_descendants r) fun _ hx => ?_)
  exact live_of_mem_descendants hx

end Depicts

end Arena

end DomHost
