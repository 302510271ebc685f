import DomHost.Proofs.Forest.Edges
import DomHost.Proofs.Store.Links

/-!
# Ways up, before and after an edit

An edit of a well-formed store gives one node another parent, or none, or it takes nodes away. So the way
up from a node stays as it is unless it leads through the node that is moved, and then it ends where the
way up from that one ends.

* `Store.top?`: the end of the way up;
* **`Store.Reparents.ancestors`**, **`Store.Reparents.top?`**: ways up when one node gets another parent;
* `Store.WellFormed.place`, `Store.WellFormed.takeOut`: the edits that do this;
* `Store.WellFormed.ancestors_without`, `Store.WellFormed.ancestors_plant`: removing and adding a tree.
-/

namespace DomHost

namespace Chain

variable {α : Type} {next next' : α → Option α} {first : Option α} {l l' front back : List α} {a : α}

/-- A link that is the same at the front leads to where it went, and on as it goes now. -/
theorem splice (h : Chain next first (front ++ a :: back)) (hf : ∀ b ∈ front, next' b = next b)
    (h' : Chain next' (some a) l') : Chain next' first (front ++ l') := by
  induction front generalizing first with
  | nil =>
    cases h with
    | step _ => exact h'
  | cons b front ih =>
    obtain ⟨hb, hf⟩ := List.forall_mem_cons.mp hf
    cases h with
    | step h =>
      refine .step ?_
      rw [hb]
      exact ih h hf

theorem congr (h : Chain next first l) (hl : ∀ b ∈ l, next' b = next b) : Chain next' first l := by
  induction h with
  | stop => exact .stop
  | @step b l h ih =>
    obtain ⟨hb, hl⟩ := List.forall_mem_cons.mp hl
    refine .step ?_
    rw [hb]
    exact ih hl

/-- All ways through a value end alike. -/
theorem getLast?_eq (h : Chain next first l) (ha : a ∈ l) (h' : Chain next (some a) l') :
    l'.getLast? = l.getLast? := by
  obtain ⟨front, back, rfl⟩ := List.append_of_mem ha
  obtain rfl := h'.unique (.step h.behind)
  rw [List.getLast?_append_cons]

end Chain

namespace Store

variable {s s' : Store} {r p c x a : NodeRef}

/-- The node at which the way up from a node ends. -/
def top? (s : Store) (r : NodeRef) : Option NodeRef := (s.ancestors r).getLast?

/-! ## Parents -/

theorem WellFormed.parent?_iff_edge (h : s.WellFormed) :
    s.parent? r = some p ↔ ∃ e ∈ s.forest.edges, e.1.ref = p ∧ e.2.ref = r := by
  rw [h.parent?_eq_some_iff]
  constructor
  · intro hr
    obtain ⟨t, ht, hp, n, hn, hr, -⟩ := mem_children hr
    exact ⟨(t.1, n), Forest.mem_edges_iff.mpr ⟨t, ht, rfl, hn⟩, hp, hr⟩
  · rintro ⟨e, he, rfl, rfl⟩
    obtain ⟨t, ht, hp, hr⟩ := Forest.mem_edges_iff.mp he
    rw [← hp, children_of_tree? (h.tree?_eq_some ht)]
    exact List.mem_map_of_mem hr

/-- Parents are the same where the edges are. -/
theorem WellFormed.parent?_congr (h : s.WellFormed) (h' : s'.WellFormed)
    (he : ∀ e : Node × Node, e.2.ref = r → (e ∈ s'.forest.edges ↔ e ∈ s.forest.edges)) :
    s'.parent? r = s.parent? r := by
  refine Option.ext fun p => ?_
  rw [h.parent?_iff_edge, h'.parent?_iff_edge]
  constructor
  · rintro ⟨e, hm, hp, hr⟩
    exact ⟨e, (he e hr).mp hm, hp, hr⟩
  · rintro ⟨e, hm, hp, hr⟩
    exact ⟨e, (he e hr).mpr hm, hp, hr⟩

/-! ## Nodes below others -/

theorem mem_ancestors_self (hr : s.Live r) : r ∈ s.ancestors r := by
  obtain ⟨n, path, -, -, ha⟩ := exists_climb hr
  rw [ha]
  exact List.mem_cons_self

theorem live_of_ancestors (ha : a ∈ s.ancestors r) : s.Live r := by
  by_contra hr
  rw [ancestors_eq_nil hr] at ha
  exact absurd ha (by simp)

namespace WellFormed

theorem parent?_isSome (h : s.WellFormed) (hp : s.parent? r = some p) : s.Live r ∧ s.Live p :=
  (live_of_child (h.parent?_eq_some_iff.mp hp)).symm

theorem ancestors_of_parent? (h : s.WellFormed) (hp : s.parent? r = some p) :
    s.ancestors r = r :: s.ancestors p := by
  obtain ⟨hr, hpl⟩ := h.parent?_isSome hp
  refine (h.chain_parent? hr).unique (.step ?_)
  rw [hp]
  exact h.chain_parent? hpl

theorem mem_ancestors_of_parent? (h : s.WellFormed) (hp : s.parent? r = some p) : p ∈ s.ancestors r := by
  rw [h.ancestors_of_parent? hp]
  exact List.mem_cons_of_mem _ (mem_ancestors_self (h.parent?_isSome hp).2)

/-- The way up from the parent does not lead back. -/
theorem notMem_ancestors_of_parent? (h : s.WellFormed) (hp : s.parent? r = some p) : r ∉ s.ancestors p := by
  have hn := h.distinct.nodup_ancestors r
  rw [h.ancestors_of_parent? hp] at hn
  exact (List.nodup_cons.mp hn).1

theorem ancestors_of_parent?_none (h : s.WellFormed) (hr : s.Live r) (hp : s.parent? r = none) :
    s.ancestors r = [r] := by
  refine (h.chain_parent? hr).unique (.step ?_)
  rw [hp]
  exact .stop

/-- The way up leads on from each node on it. -/
theorem ancestors_of_append (h : s.WellFormed) {front back : List NodeRef} (hl : s.ancestors r = front ++ a :: back) :
    s.ancestors a = a :: back := by
  have ha : a ∈ s.ancestors r := by
    rw [hl]
    exact List.mem_append_right _ List.mem_cons_self
  have hc := h.chain_parent? (live_of_ancestors ha)
  rw [hl] at hc
  exact (h.chain_parent? (live_of_mem_ancestors ha)).unique (.step hc.behind)

theorem ancestors_subset (h : s.WellFormed) (ha : a ∈ s.ancestors r) : s.ancestors a ⊆ s.ancestors r := by
  obtain ⟨front, back, hl⟩ := List.append_of_mem ha
  rw [h.ancestors_of_append hl, hl]
  exact List.subset_append_right _ _

/-- A way up that leads through a node from below comes there from one of its children. -/
theorem exists_child (h : s.WellFormed) (ha : a ∈ s.ancestors x) (hx : x ≠ a) :
    ∃ c ∈ s.children a, c ∈ s.ancestors x := by
  obtain ⟨front, back, hl⟩ := List.append_of_mem ha
  have hc := h.chain_parent? (live_of_ancestors ha)
  rw [hl] at hc ⊢
  cases hlast : front.getLast? with
  | none =>
    rw [List.getLast?_eq_none_iff] at hlast
    subst hlast
    exact absurd (Option.some.inj hc.head?_eq).symm hx
  | some c =>
    obtain ⟨front, rfl⟩ := List.getLast?_eq_some_iff.mp hlast
    rw [List.append_assoc, List.singleton_append] at hc
    exact ⟨c, h.parent?_eq_some_iff.mp hc.behind.head?_eq.symm, by simp⟩

/-- A path of child indices leads to a node below. -/
theorem mem_ancestors_childAtPath? (h : s.WellFormed) (ha : s.Live a) {path : List Nat}
    (hx : s.childAtPath? a path = some x) : a ∈ s.ancestors x := by
  induction path generalizing a with
  | nil =>
    obtain rfl := Option.some.inj hx
    exact mem_ancestors_self ha
  | cons i path ih =>
    obtain ⟨c, hc, hx⟩ := Option.bind_eq_some_iff.mp hx
    have hm : c ∈ s.children a := List.mem_of_getElem? hc
    exact h.ancestors_subset (ih (live_of_child hm).2 hx)
      (h.mem_ancestors_of_parent? (h.parent?_eq_some_iff.mpr hm))

/-- The nodes below the children of a node are those strictly below it. -/
theorem exists_child_iff (h : s.WellFormed) :
    (∃ c ∈ s.children a, c ∈ s.ancestors x) ↔ a ∈ s.ancestors x ∧ x ≠ a := by
  refine ⟨?_, fun hx => h.exists_child hx.1 hx.2⟩
  rintro ⟨c, hc, hx⟩
  have hparent := h.parent?_eq_some_iff.mpr hc
  refine ⟨h.ancestors_subset hx (h.mem_ancestors_of_parent? hparent), ?_⟩
  rintro rfl
  exact h.notMem_ancestors_of_parent? hparent hx

/-- No two nodes are above each other. -/
theorem ancestors_antisymm (h : s.WellFormed) (ha : a ∈ s.ancestors r) (hr : r ∈ s.ancestors a) : a = r := by
  by_contra hne
  obtain ⟨c, hc, hcr⟩ := h.exists_child ha (Ne.symm hne)
  exact h.notMem_ancestors_of_parent? (h.parent?_eq_some_iff.mpr hc) (h.ancestors_subset hr hcr)

/-! ## Tops -/

theorem top?_isSome (h : s.Live r) : ∃ t, s.top? r = some t := by
  obtain ⟨n, path, -, -, ha⟩ := exists_climb h
  exact ⟨_, by rw [top?, ha, List.getLast?_eq_some_getLast (List.cons_ne_nil _ _)]⟩

theorem top?_of_mem (h : s.WellFormed) (ha : a ∈ s.ancestors r) : s.top? a = s.top? r :=
  (h.chain_parent? (live_of_ancestors ha)).getLast?_eq ha (h.chain_parent? (live_of_mem_ancestors ha))

theorem top?_parent? (h : s.WellFormed) (hp : s.parent? r = some p) : s.top? p = s.top? r :=
  h.top?_of_mem (h.mem_ancestors_of_parent? hp)

theorem parent?_top? (h : s.WellFormed) (ht : s.top? r = some a) : s.Live a ∧ s.parent? a = none := by
  have ha : a ∈ s.ancestors r := List.mem_of_getLast? ht
  refine ⟨live_of_mem_ancestors ha, ?_⟩
  have hlast := h.top?_of_mem ha
  cases hp : s.parent? a with
  | none => rfl
  | some p =>
    -- the way up from the last node would lead back to it
    rw [← h.top?_parent? hp, ht] at hlast
    have hback : a ∈ s.ancestors p := List.mem_of_getLast? hlast
    exact absurd hback (h.notMem_ancestors_of_parent? hp)

theorem top?_of_parent?_none (h : s.WellFormed) (hr : s.Live r) (hp : s.parent? r = none) :
    s.top? r = some r := by
  rw [top?, h.ancestors_of_parent?_none hr hp]
  rfl

/-- A node is below the top of its tree and below no other. -/
theorem mem_ancestors_iff_top? (h : s.WellFormed) (ha : s.Live a) (hp : s.parent? a = none) :
    a ∈ s.ancestors r ↔ s.top? r = some a := by
  refine ⟨fun hm => ?_, List.mem_of_getLast?⟩
  rw [← h.top?_of_mem hm]
  exact h.top?_of_parent?_none ha hp

/-- Ways up along which no parent changes. -/
theorem ancestors_congr (h : s.WellFormed) (h' : s'.WellFormed) (hr : s.Live r) (hr' : s'.Live r)
    (hp : ∀ y ∈ s.ancestors r, s'.parent? y = s.parent? y) : s'.ancestors r = s.ancestors r :=
  (h'.chain_parent? hr').unique ((h.chain_parent? hr).congr hp)

/-- **The way up from a node stays when its tree does.** -/
theorem ancestors_of_tops (h : s.WellFormed) (h' : s'.WellFormed)
    (ht : ∀ t ∈ s.forest.tops, t ∈ s'.forest.tops) (hr : s.Live r) : s'.ancestors r = s.ancestors r := by
  have htree : ∀ {y}, s.Live y → ∃ t ∈ s.forest.tops, y ∈ (Forest.labels t).map (·.ref) := fun {y} hy => by
    rw [Live, refs, Forest.toList_eq_flatMap_tops, List.map_flatMap] at hy
    exact List.mem_flatMap.mp hy
  obtain ⟨t, htop, hlabel⟩ := htree hr
  have hr' : s'.Live r := by
    obtain ⟨n, hn, rfl⟩ := List.mem_map.mp hlabel
    exact List.mem_map_of_mem (Forest.mem_toList_of_mem_tops (ht t htop) hn)
  refine h.ancestors_congr h' hr hr' fun y hy => h.parent?_congr h' fun e he => ?_
  rw [Forest.mem_edges_iff_tops, Forest.mem_edges_iff_tops]
  constructor
  · rintro ⟨u, hu, heu⟩
    obtain ⟨v, hv, hyv⟩ := htree (live_of_mem_ancestors hy)
    have hyu : y ∈ (Forest.labels u).map (·.ref) :=
      he ▸ List.mem_map_of_mem (List.mem_cons_of_mem _ (Forest.snd_mem_of_treeEdges heu))
    obtain rfl := h'.top_eq hu (ht v hv) hyu hyv
    exact ⟨u, hv, heu⟩
  · rintro ⟨u, hu, heu⟩
    exact ⟨u, ht u hu, heu⟩

end WellFormed

/-! ## Moving a tree -/

/-- A store in which one node has another parent, or none any more. -/
structure Reparents (s s' : Store) (c : NodeRef) (o : Option NodeRef) : Prop where
  before : s.WellFormed
  after : s'.WellFormed
  live : ∀ x, s'.Live x ↔ s.Live x
  parent? : ∀ x, s'.parent? x = if x = c then o else s.parent? x
  notAbove : ∀ p ∈ o, c ∉ s.ancestors p

namespace Reparents

variable {o : Option NodeRef} (h : s.Reparents s' c o)

include h

/-- **The way up from a node that is not moved along stays.** -/
theorem ancestors (hx : c ∉ s.ancestors x) : s'.ancestors x = s.ancestors x := by
  by_cases hl : s.Live x
  · refine h.before.ancestors_congr h.after hl ((h.live x).mpr hl) fun y hy => ?_
    rw [h.parent?, if_neg fun he : y = c => hx (he ▸ hy)]
  · rw [ancestors_eq_nil hl, ancestors_eq_nil fun hl' => hl ((h.live x).mp hl')]

/-- The way up from a node that is moved along is the same up to the one that is moved. -/
theorem exists_front (hx : c ∈ s.ancestors x) :
    ∃ front, s.ancestors x = front ++ s.ancestors c ∧ s'.ancestors x = front ++ s'.ancestors c := by
  have hl := live_of_ancestors hx
  have hc := live_of_mem_ancestors hx
  obtain ⟨front, back, ha⟩ := List.append_of_mem hx
  have hchain := h.before.chain_parent? hl
  rw [ha] at hchain
  have hn := hchain.nodup
  have hfront : ∀ y ∈ front, s'.parent? y = s.parent? y := by
    intro y hy
    rw [h.parent?, if_neg]
    rintro rfl
    exact (List.nodup_append.mp hn).2.2 y hy y List.mem_cons_self rfl
  refine ⟨front, ?_, ?_⟩
  · rw [ha, h.before.ancestors_of_append ha]
  · exact (h.after.chain_parent? ((h.live x).mpr hl)).unique
      (hchain.splice hfront (h.after.chain_parent? ((h.live c).mpr hc)))

/-- A node that is moved along stays below the one that is moved. -/
theorem mem_ancestors (hx : c ∈ s.ancestors x) : c ∈ s'.ancestors x := by
  obtain ⟨front, -, ha⟩ := h.exists_front hx
  rw [ha]
  exact List.mem_append_right _ (mem_ancestors_self ((h.live c).mpr (live_of_mem_ancestors hx)))

/-- **The tree of a node that is moved along is the one it is moved to.** -/
theorem top? (hx : c ∈ s.ancestors x) : s'.top? x = o.elim (some c) s.top? := by
  have hc := h.mem_ancestors hx
  have hparent : s'.parent? c = o := by rw [h.parent?, if_pos rfl]
  rw [← h.after.top?_of_mem hc]
  cases o with
  | none => exact h.after.top?_of_parent?_none (live_of_mem_ancestors hc) hparent
  | some p =>
    rw [← h.after.top?_parent? hparent, Store.top?, h.ancestors (h.notAbove p rfl)]
    rfl

end Reparents

namespace WellFormed

theorem live_place (h : s.WellFormed) (hi : s.Insertable p c) (before : Option NodeRef) :
    (s.place p c before).Live x ↔ s.Live x := by
  obtain ⟨d, hd, -⟩ := hi.container
  obtain ⟨e, he, -⟩ := hi.movable
  obtain ⟨k, hct⟩ := exists_tree?_of_get? he
  have hlive : s.Live p := get?_isSome_iff.mp (by rw [hd]; rfl)
  obtain ⟨⟨m, j⟩, hu, -, -⟩ := h.distinct.find?_prune hct hlive hi.notAbove
  have hperm := h.distinct.perm_place (fun n => before == some n.ref) hct hu
  rw [Live, Live, refs, refs, Store.place, hct]
  exact (hperm.map fun n : Node => n.ref).mem_iff

/-- **A node that is put under another has this one as its parent.** -/
theorem place (h : s.WellFormed) (hi : s.Insertable p c) (before : Option NodeRef) :
    s.Reparents (s.place p c before) c (some p) := by
  have h' : (s.place p c before).WellFormed :=
    (h.guards.place before hi (by simp [refsOf]) (by simp [refsOf])).wellFormed
  refine ⟨h, h', fun x => h.live_place hi before, fun x => ?_, fun q hq => Option.some.inj hq ▸ hi.notAbove⟩
  obtain ⟨d, hd, -⟩ := hi.container
  obtain ⟨data, hdata, -⟩ := hi.movable
  obtain ⟨k, hct⟩ := exists_tree?_of_get? hdata
  have hlive : s.Live p := get?_isSome_iff.mp (by rw [hd]; rfl)
  obtain ⟨⟨m, j⟩, hu, rfl, -⟩ := h.distinct.find?_prune hct hlive hi.notAbove
  have hprune := Forest.perm_prune (h.countP_le_one c) hct
  have hle : (s.forest.prune (is c)).toList.countP (is m.ref) ≤ 1 := by
    have h1 := h.countP_le_one m.ref
    rw [hprune.countP_eq, List.countP_append] at h1
    omega
  have hedges : ∀ e : Node × Node, e ∈ (s.place m.ref c before).forest.edges ↔
      (e ∈ s.forest.edges ∧ ¬ is c e.2 = true) ∨ e = (m, ⟨c, data⟩) := by
    intro e
    rw [Store.place, hct, Forest.mem_edges_prune (h.countP_le_one c) hct]
    simp only [Forest.mem_edges_editChildren hle hu]
    exact or_assoc.symm.trans or_right_comm
  by_cases hx : x = c
  · subst hx
    rw [if_pos rfl, h'.parent?_iff_edge]
    exact ⟨_, (hedges _).mpr (Or.inr rfl), rfl, rfl⟩
  · rw [if_neg hx]
    refine h.parent?_congr h' fun e he => ?_
    rw [hedges]
    constructor
    · rintro (he | rfl)
      · exact he.1
      · exact absurd he.symm hx
    · exact fun hm => Or.inl ⟨hm, fun hc => hx (he.symm.trans (is_iff.mp hc))⟩

/-- **A node that is taken out has no parent.** -/
theorem takeOut (h : s.WellFormed) (r : NodeRef) : s.Reparents (s.takeOut r) r none := by
  have h' : (s.takeOut r).WellFormed := (h.guards.takeOut (by simp [refsOf])).wellFormed
  refine ⟨h, h', fun x => ((h.distinct.perm_takeOut r).map fun n : Node => n.ref).mem_iff, fun x => ?_, by simp⟩
  unfold Store.takeOut at h' ⊢
  split
  · rename_i p n k hp ht
    rw [hp, ht] at h'
    have hedges : ∀ e : Node × Node, e ∈ (Forest.node n k (s.forest.prune (is r))).edges ↔
        e ∈ s.forest.edges ∧ ¬ is r e.2 = true := by
      intro e
      rw [Forest.mem_edges_prune (h.countP_le_one r) ht, Forest.mem_edges_node]
      exact or_comm
    by_cases hx : x = r
    · subst hx
      rw [if_pos rfl, ← Option.not_isSome_iff_eq_none, Option.isSome_iff_exists]
      rintro ⟨q, hq⟩
      obtain ⟨e, he, -, hr⟩ := h'.parent?_iff_edge.mp hq
      exact ((hedges e).mp he).2 (is_iff.mpr hr)
    · rw [if_neg hx]
      refine h.parent?_congr h' fun e he => ?_
      rw [hedges]
      exact and_iff_left fun hr => hx (he.symm.trans (is_iff.mp hr))
  · rename_i hnone
    by_cases hx : x = r
    · subst hx
      rw [if_pos rfl]
      cases hp : s.parent? x with
      | none => rfl
      | some p =>
        obtain ⟨n, k, ht⟩ := exists_tree? (h.parent?_isSome hp).1
        exact absurd ht (hnone p n k hp)
    · rw [if_neg hx]

/-! ## Adding and removing a tree -/

/-- **The way up from a node stays when another tree is removed.** -/
theorem ancestors_without (h : s.WellFormed) (hr : r ≠ .root) (hx : x ∉ s.descendants r) :
    (s.without r).ancestors x = s.ancestors x := by
  have h' : (s.without r).WellFormed :=
    (h.guards.without hr (by simp [refsOf]) (by simp)).wellFormed
  by_cases hl : s.Live x
  · refine h.ancestors_congr h' hl (h.distinct.live_without.mpr ⟨hl, hx⟩) fun y hy => ?_
    have hy' : y ∉ s.descendants r := by
      rw [h.mem_descendants_iff] at hx ⊢
      exact fun hm => hx (h.ancestors_subset hy hm)
    refine h.parent?_congr h' fun e he => ?_
    cases ht : s.tree? r with
    | none =>
      rw [Store.without, Forest.prune_eq_self (Forest.find?_eq_none.mp ht)]
    | some t =>
      have hprune := Forest.mem_edges_prune (e := e) (h.countP_le_one r) ht
      rw [descendants_of_tree? ht] at hy'
      constructor
      · exact fun hm => (hprune.mpr (Or.inl hm)).1
      · intro hm
        have hnot : ¬ is r e.2 = true := by
          rw [is_iff]
          rintro hr
          rw [← he, hr, ← (mem_trees_of_tree? ht).2] at hy'
          exact hy' (List.mem_map_of_mem List.mem_cons_self)
        refine (hprune.mp ⟨hm, hnot⟩).resolve_right fun ht => hy' ?_
        rw [← he]
        exact List.mem_map_of_mem (List.mem_cons_of_mem _ (Forest.snd_mem_of_treeEdges ht))
  · rw [ancestors_eq_nil hl, ancestors_eq_nil fun hl' => hl (h.distinct.live_without.mp hl').1]

section Plant

variable {data : NodeData} {k : Forest NodeData}

theorem live_plant (hl : s.Live x) : (s.plant data k).2.Live x := by
  rw [Live, refs_plant]
  exact List.mem_cons_of_mem _ (List.mem_append_right _ hl)

theorem plant (h : s.WellFormed) (hp : Plantable data k) : (s.plant data k).2.WellFormed :=
  (h.guards.plant hp).wellFormed

/-- **The way up from a node stays when a tree is added.** -/
theorem ancestors_plant (h : s.WellFormed) (hp : Plantable data k) (hl : s.Live x) :
    (s.plant data k).2.ancestors x = s.ancestors x := by
  have h' := h.plant hp
  refine h.ancestors_congr h' hl (live_plant hl) fun y hy => ?_
  refine h.parent?_congr h' fun e he => ?_
  have hy' : e.2.ref ∈ s.refs := he ▸ live_of_mem_ancestors hy
  rw [Store.plant, Forest.mem_edges_node]
  refine or_iff_right fun hm => ?_
  have hn := (hold_plant h.cells data k).nodup
  rw [refs_plant, List.nodup_cons] at hn
  have hnew := List.mem_map_of_mem (f := fun n : Node => n.ref) (Forest.snd_mem_of_treeEdges hm)
  exact (List.nodup_append.mp hn.2).2.2 _ hnew _ hy' rfl

/-- The new nodes are those below the top of the new tree. -/
theorem mem_descendants_plant (h : s.WellFormed) (hp : Plantable data k) :
    x ∈ (s.plant data k).2.descendants (s.plant data k).1 ↔ (s.plant data k).2.Live x ∧ ¬ s.Live x := by
  have h' := h.plant hp
  have ht := h'.tree?_eq_some (t := (_, _)) (Forest.mem_trees_of_mem_tops List.mem_cons_self)
  have hn := (hold_plant h.cells data k).nodup
  rw [refs_plant, ← List.cons_append] at hn
  have hd : (s.plant data k).2.descendants (s.plant data k).1 = (s.plant data k).1 ::
      (k.rename embody s.cells.draw.2).1.toList.map (·.ref) := descendants_of_tree? ht
  rw [hd, Live, refs_plant, ← List.cons_append, List.mem_append]
  constructor
  · exact fun hx => ⟨Or.inl hx, fun hl => (List.nodup_append.mp hn).2.2 x hx x hl rfl⟩
  · exact fun hx => hx.1.resolve_right hx.2

theorem parent?_plant (h : s.WellFormed) (hp : Plantable data k) :
    (s.plant data k).2.parent? (s.plant data k).1 = none :=
  (h.plant hp).parent?_root List.mem_cons_self

end Plant

/-- A node without children has none to let go. -/
theorem scatter_eq_self (h : s.WellFormed) (hr : s.children r = []) : s.scatter r = s := by
  unfold Store.scatter
  split
  · rename_i n k ht
    rw [children_of_tree? ht, List.map_eq_nil_iff, Forest.roots_eq_nil_iff] at hr
    subst hr
    rw [Forest.editChildren_fixed (h.countP_le_one r) ht rfl]
    rfl
  · rfl

end WellFormed

end Store

end DomHost
