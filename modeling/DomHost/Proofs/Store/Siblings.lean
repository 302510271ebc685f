import DomHost.Proofs.Forest.Trees
import DomHost.Proofs.Store.Ancestry

/-!
# Siblings, before and after an edit

A node that is put under a parent leaves the children of the one above it and takes a seat among those of
the parent. No other child, no data and nothing below the node change.

* `Store.seat`: a list with a node in it, in front of one of its members or at the end;
* `Store.Seats`: what putting a node under a parent does to children, data and subtree;
* **`Store.WellFormed.seats_place`**: moving a tree does this;
* `Store.WellFormed.children_takeOut`, `Store.WellFormed.children_without`: a node that is taken out or removed
leaves its siblings as they are;
* `Store.Admits`, `Store.Accepts`: the conditions of an insertion;
* **`Store.WellFormed.ends_insertBefore_inserts`**: an insertion succeeds just under these conditions, moves
  the one node, and leaves everything as it is when it fails.
-/

namespace DomHost

namespace NodeData

variable {d : NodeData}

theorem isDocument_iff : d.isDocument = true ↔ d = .document := by
  cases d <;> simp [isDocument]

theorem isContainer_iff : d.isContainer = true ↔ (∃ e, d = .element e) ∨ d = .document := by
  cases d <;> simp [isContainer]

theorem isText_iff : d.isText = true ↔ ∃ text, d = .text text := by
  cases d <;> simp [isText]

end NodeData

theorem NodeRef.toOption_eq_some {r b : NodeRef} : r.toOption = some b ↔ r = b ∧ b ≠ .nowhere := by
  cases r <;> grind [toOption]

namespace Store

variable {s s' : Store} {r p q c x b : NodeRef} {before reference : Option NodeRef}

/-! ## Seats -/

/-- A list with a node in it, in front of one of its members or behind all of them. -/
def seat (c : NodeRef) (before : Option NodeRef) (l : List NodeRef) : List NodeRef :=
  l.takeWhile (fun x => !(before == some x)) ++ c :: l.dropWhile fun x => !(before == some x)

/-- The seat in front of the rest of a list. -/
theorem seat_append (front back : List NodeRef) (h : ∀ b ∈ back.head?, b ∉ front) :
    seat c back.head? (front ++ back) = front ++ c :: back := by
  have hpos : ∀ x ∈ front, (!(back.head? == some x)) = true := fun x hx => by
    simpa using fun he : back.head? = some x => h x he hx
  rw [seat, List.takeWhile_append_of_pos hpos, List.dropWhile_append_of_pos hpos]
  cases back <;> simp

theorem seat_none (l : List NodeRef) : seat c none l = l ++ [c] := by
  simpa using seat_append (c := c) l [] (by simp)

theorem filter_ne_of_nodup {front back : List NodeRef} (h : (front ++ c :: back).Nodup) :
    (front ++ c :: back).filter (· != c) = front ++ back := by
  obtain ⟨-, hback, hdis⟩ := List.nodup_append.mp h
  have hfront : ∀ x ∈ front, (x != c) = true := fun x hx => by
    simpa using hdis x hx c List.mem_cons_self
  have hbehind : ∀ x ∈ back, (x != c) = true := fun x hx => by
    simpa using fun he : x = c => (List.nodup_cons.mp hback).1 (he ▸ hx)
  rw [List.filter_append, List.filter_cons_of_neg (by simp), List.filter_eq_self.mpr hfront,
    List.filter_eq_self.mpr hbehind]

/-! ## Moving a tree -/

/-- A node has taken a seat among the children of a parent, and everything else is as it was. -/
structure Seats (s : Store) (p c : NodeRef) (before : Option NodeRef) (s' : Store) : Prop where
  reparents : s.Reparents s' c (some p)
  children : s'.children p = seat c before ((s.children p).filter (· != c))
  others : ∀ q, q ≠ p → s'.children q = (s.children q).filter (· != c)
  get? : ∀ x, s'.get? x = s.get? x
  tree? : s'.tree? c = s.tree? c

theorem children_eq_nil (hr : ¬ s.Live r) : s.children r = [] :=
  List.eq_nil_iff_forall_not_mem.mpr fun _ hx => hr (live_of_child hx).1

/-- The children that a node has after another one has moved are those of its tree. -/
theorem Reparents.children_eq {new : Option NodeRef} (h : s.Reparents s' c new)
    (hv : ∀ v ∈ s'.forest.trees, v.1.ref = q → v.2.roots.map (·.ref) = (s.children v.1.ref).filter (· != c)) :
    s'.children q = (s.children q).filter (· != c) := by
  by_cases hl : s.Live q
  · obtain ⟨n, l, ht⟩ := exists_tree? ((h.live q).mpr hl)
    obtain ⟨hm, rfl⟩ := mem_trees_of_tree? ht
    rw [children_of_tree? ht, hv (n, l) hm rfl]
  · rw [children_eq_nil hl, children_eq_nil fun hl' => hl ((h.live q).mp hl')]
    rfl

/-- The data of nodes are the same where the nodes are. -/
theorem Distinct.get?_congr (h : s.Distinct) (h' : s'.Distinct)
    (hp : s'.forest.toList.Perm s.forest.toList) (x : NodeRef) : s'.get? x = s.get? x := by
  refine Option.ext fun d => ?_
  rw [h.get?_eq_some_iff, h'.get?_eq_some_iff, hp.mem_iff]

/-- A node outside of a tree that is cut out has the children it had, without the top of that tree. -/
theorem Distinct.map_roots_prune (h : s.Distinct) {v : Node × Forest Node}
    (hv : v ∈ (s.forest.prune (is c)).trees) :
    v.2.roots.map (·.ref) = (s.children v.1.ref).filter (· != c) := by
  obtain ⟨u, hu, hr, he⟩ := Forest.exists_mem_trees_of_prune hv
  rw [he, Forest.roots_prune, ← hr, children_of_tree? (h.tree?_eq_some hu), List.filter_map]
  rfl

namespace WellFormed

theorem notMem_children_of_parent? (h : s.WellFormed) (hq : s.parent? c ≠ some q) : c ∉ s.children q :=
  fun hm => hq (h.parent?_eq_some_iff.mpr hm)

/-- What has children may have them. -/
theorem container_of_child (h : s.WellFormed) (hc : c ∈ s.children p) :
    ∃ d, s.get? p = some d ∧ d.isContainer = true := by
  obtain ⟨t, ht, rfl, n, hn, -, -⟩ := mem_children hc
  have hne : t.2 ≠ .nil := fun he => by
    rw [he] at hn
    cases hn
  refine ⟨t.1.data, ?_, (h.bears.of_mem_trees ht).1 hne⟩
  rw [get?, h.tree?_eq_some ht]
  rfl

/-- A node without the given one among its children keeps them all. -/
theorem filter_children (h : s.WellFormed) (hq : s.parent? c ≠ some q) :
    (s.children q).filter (· != c) = s.children q := by
  refine List.filter_eq_self.mpr fun x hx => ?_
  simpa using fun he : x = c => h.notMem_children_of_parent? hq (he ▸ hx)

/-- The children of a node that is at or below another one do not change with that one's place. -/
theorem map_roots_of_mem_labels (h : s.WellFormed) {t v : Node × Forest Node} (ht : s.tree? c = some t)
    (hv : v ∈ t :: t.2.trees) :
    v.2.roots.map (·.ref) = (s.children v.1.ref).filter (· != c) := by
  have htree := (mem_trees_of_tree? ht).1
  have hmem : v ∈ s.forest.trees := by
    rcases List.mem_cons.mp hv with rfl | hv
    · exact htree
    · exact Forest.mem_trees_of_mem_below htree hv
  have hbelow : c ∈ s.ancestors v.1.ref := by
    rw [← h.mem_descendants_iff, descendants_of_tree? ht, Forest.labels_eq_map_trees, List.map_map]
    exact List.mem_map_of_mem hv
  rw [h.filter_children fun hp => h.notMem_ancestors_of_parent? hp hbelow,
    children_of_tree? (h.tree?_eq_some hmem)]

/-- **A tree that is put under a parent takes its seat, and nothing else changes.** -/
theorem seats_place (h : s.WellFormed) (hi : s.Insertable p c) (before : Option NodeRef) :
    s.Seats p c before (s.place p c before) := by
  have hr := h.place hi before
  have h' := hr.after
  obtain ⟨d, hd, -⟩ := hi.container
  obtain ⟨data, hdata, -⟩ := hi.movable
  obtain ⟨k, hct⟩ := exists_tree?_of_get? hdata
  have hlive : s.Live p := get?_isSome_iff.mp (by rw [hd]; rfl)
  obtain ⟨⟨m, j⟩, hu, rfl, -⟩ := h.distinct.find?_prune hct hlive hi.notAbove
  have hplace : s.place m.ref c before = { s with
      forest := (s.forest.prune (is c)).editChildren (is m.ref)
        (·.adopt (fun n => before == some n.ref) (⟨c, data⟩, k)) } := by
    rw [Store.place, hct]
  have hfind := Forest.find?_editChildren (·.adopt (fun n => before == some n.ref) (⟨c, data⟩, k)) hu
  have htree : (⟨⟨c, data⟩, k⟩ : Node × Forest Node) ∈ (s.place m.ref c before).forest.trees := by
    rw [hplace]
    exact Forest.mem_trees_of_mem_below (Forest.mem_trees_of_find? hfind).1
      (Forest.mem_trees_adopt.mpr (Or.inl rfl))
  refine ⟨hr, ?_, fun q hq => ?_, ?_, ?_⟩
  · have hroots := h.distinct.map_roots_prune (Forest.mem_trees_of_find? hu).1
    rw [children_of_tree? (n := m) (by rw [hplace]; exact hfind), Forest.roots_adopt, ← hroots, seat,
      List.takeWhile_map, List.dropWhile_map, List.map_append, List.map_cons]
    rfl
  · refine hr.children_eq fun v hv hvq => ?_
    rw [hplace] at hv
    obtain ⟨u, hu, ⟨hur, he⟩ | ⟨-, he⟩⟩ := Forest.exists_mem_trees_of_editChildren hv
    · rw [if_neg (by simpa [is, hur, hvq] using hq)] at he
      rw [he, ← hur]
      exact h.distinct.map_roots_prune hu
    · rcases Forest.mem_trees_adopt.mp he with he | he | he
      · exact h.map_roots_of_mem_labels hct (he ▸ List.mem_cons_self)
      · exact h.map_roots_of_mem_labels hct (List.mem_cons_of_mem _ he)
      · exact h.distinct.map_roots_prune (Forest.mem_trees_of_mem_below hu he)
  · refine h.distinct.get?_congr h'.distinct ?_
    rw [hplace]
    exact h.distinct.perm_place _ hct hu
  · rw [h'.tree?_eq_some htree, hct]

/-! ## Taking a tree out -/

/-- **A node that is taken out leaves its siblings as they are.** -/
theorem children_takeOut (h : s.WellFormed) (r q : NodeRef) :
    (s.takeOut r).children q = (s.children q).filter (· != r) := by
  refine (h.takeOut r).children_eq fun v hv _ => ?_
  unfold Store.takeOut at hv
  split at hv
  · rename_i ht
    rcases List.mem_cons.mp hv with he | hv
    · exact h.map_roots_of_mem_labels ht (he ▸ List.mem_cons_self)
    · rcases List.mem_append.mp hv with he | he
      · exact h.map_roots_of_mem_labels ht (List.mem_cons_of_mem _ he)
      · exact h.distinct.map_roots_prune he
  · rename_i hnone
    have hparent : s.parent? r ≠ some v.1.ref := fun hp => by
      obtain ⟨m, k, ht⟩ := exists_tree? (h.parent?_isSome hp).1
      exact hnone _ m k hp ht
    rw [h.filter_children hparent, children_of_tree? (h.tree?_eq_some hv)]

theorem get?_takeOut (h : s.WellFormed) (r x : NodeRef) : (s.takeOut r).get? x = s.get? x :=
  h.distinct.get?_congr (h.takeOut r).after.distinct (h.distinct.perm_takeOut r) x

/-- A node that stays has the children it had, without the top of the tree that is gone. -/
theorem children_without (h : s.WellFormed) (hx : x ∉ s.descendants r) :
    (s.without r).children x = (s.children x).filter (· != r) := by
  by_cases hl : s.Live x
  · obtain ⟨n, c, ht⟩ := exists_tree? (h.distinct.live_without.mpr ⟨hl, hx⟩)
    obtain ⟨hm, rfl⟩ := mem_trees_of_tree? ht
    rw [children_of_tree? ht, h.distinct.map_roots_prune hm]
  · rw [children_eq_nil hl, children_eq_nil fun hl' => hl (h.distinct.live_without.mp hl').1]
    rfl

end WellFormed

/-! ## Conditions of an insertion -/

/-- A node may be put under a parent: it is not the document, not the parent and not above it, and no text
comes right under the document. -/
structure Admits (s : Store) (p c : NodeRef) : Prop extends s.Insertable p c where
  noText : s.get? p = some .document → ∀ text, s.get? c ≠ some (.text text)

/-- A node may be put under a parent in front of a reference, which is a child of the parent unless it is
absent. -/
structure Accepts (s : Store) (p c : NodeRef) (reference : Option NodeRef) : Prop extends s.Admits p c where
  child : ∀ b, reference = some b → b ≠ .nowhere → b ∈ s.children p

theorem Admits.live (h : s.Admits p c) : s.Live p ∧ s.Live c := by
  obtain ⟨d, hd, -⟩ := h.container
  obtain ⟨e, he, -⟩ := h.movable
  exact ⟨get?_isSome_iff.mp (by rw [hd]; rfl), get?_isSome_iff.mp (by rw [he]; rfl)⟩

/-- **The rules let a node in just if it may be put under the parent.** -/
theorem ends_checkInsertion_admits (s : Store) (p c : NodeRef) :
    Ends (checkInsertion p c) s (fun _ s' => s' = s ∧ s.Admits p c) fun s' => s' = s ∧ ¬ s.Admits p c := by
  unfold checkInsertion
  refine ((ends_require_live s p).mono (fun _ _ he => he) fun _ he =>
    ⟨he.1, fun ha => he.2 ha.live.1⟩).bind ?_
  rintro above s ⟨rfl, hp⟩
  refine ((ends_require_live s c).mono (fun _ _ he => he) fun _ he =>
    ⟨he.1, fun ha => he.2 ha.live.2⟩).bind ?_
  rintro below s ⟨rfl, hc⟩
  have habove : ∀ d, s.get? p = some d → d = above := fun d hd => Option.some.inj (hd.symm.trans hp)
  have hbelow : ∀ d, s.get? c = some d → d = below := fun d hd => Option.some.inj (hd.symm.trans hc)
  refine Ends.ite (fun hcont => ?_) fun hcont => Ends.throw_bind ⟨rfl, fun ha => ?_⟩
  swap
  · obtain ⟨d, hd, hdc⟩ := ha.container
    exact hcont (habove d hd ▸ hdc)
  refine Ends.ite (fun hdoc => Ends.throw_bind ⟨rfl, fun ha => ?_⟩) fun hdoc => ?_
  · obtain ⟨d, hd, hdd⟩ := ha.movable
    rw [hbelow d hd, hdoc] at hdd
    exact absurd hdd (by simp)
  refine Ends.get_bind (Ends.ite (fun hanc => Ends.throw_bind ⟨rfl, fun ha => ha.notAbove ?_⟩) fun hanc => ?_)
  · simpa [isInclusiveAncestor] using hanc
  have hi : s.Insertable p c :=
    ⟨⟨above, hp, hcont⟩, ⟨below, hc, by simpa using hdoc⟩, by simpa [isInclusiveAncestor] using hanc⟩
  refine Ends.ite (fun htext => Ends.throw ⟨rfl, fun ha => ?_⟩) fun htext =>
    Ends.pure ⟨rfl, hi, fun hd text ht => ?_⟩
  · obtain ⟨hd, ht⟩ := Bool.and_eq_true_iff.mp htext
    obtain ⟨text, rfl⟩ := NodeData.isText_iff.mp ht
    exact ha.noText (NodeData.isDocument_iff.mp hd ▸ hp) text hc
  · rw [← habove _ hd, ← hbelow _ ht] at htext
    exact htext rfl

/-! ## Insertions -/

/-- The child in front of which a node comes: the reference, or the one behind it when the node is the
reference itself. -/
def anchor (s : Store) (c : NodeRef) (reference : Option NodeRef) : Option NodeRef :=
  (reference.bind (·.toOption)).bind fun b => if b = c then s.nextSibling? c else some b

/-- **An insertion succeeds just if it is acceptable, and then the node takes its seat.** -/
theorem WellFormed.ends_insertBefore_seats (h : s.WellFormed) (p c : NodeRef) (reference : Option NodeRef) :
    Ends (insertBefore p c reference) s
      (fun _ s' => s.Accepts p c reference ∧ s.Seats p c (s.anchor c reference) s')
      fun s' => ¬ s.Accepts p c reference ∧ s' = s := by
  unfold insertBefore anchor
  refine ((ends_checkInsertion_admits s p c).mono (fun _ _ he => he) fun _ he =>
    ⟨fun ha => he.2 ha.toAdmits, he.1⟩).bind ?_
  rintro _ s ⟨rfl, ha⟩
  cases hb : reference.bind (·.toOption) with
  | none =>
    refine Ends.modify ⟨⟨ha, fun b hr hn => ?_⟩, h.seats_place ha.toInsertable none⟩
    rw [hr, Option.bind_some, NodeRef.toOption_eq_some.mpr ⟨rfl, hn⟩] at hb
    exact absurd hb (by simp)
  | some b =>
    obtain ⟨r, rfl, hr⟩ := Option.bind_eq_some_iff.mp hb
    obtain ⟨rfl, hne⟩ := NodeRef.toOption_eq_some.mp hr
    have hchild : s.Accepts p c (some r) → s.parent? r = some p := fun hacc =>
      h.parent?_eq_some_iff.mpr (hacc.child r rfl hne)
    have hlive : Ends (discard (require r)) s (fun _ s' => s' = s) fun s' => s' = s ∧ ¬ s.Live r :=
      (ends_require_live s r).discard.mono (fun _ _ ⟨_, hs, _⟩ => hs) fun _ he => he
    refine (hlive.mono (fun _ _ he => he) fun _ he =>
      ⟨fun hacc => he.2 (h.parent?_isSome (hchild hacc)).1, he.1⟩).bind ?_
    rintro _ s rfl
    refine Ends.get_bind (Ends.ite (fun hp => ?_) fun hp =>
      Ends.throw_bind ⟨fun hacc => hp (by simpa using hchild hacc), rfl⟩)
    refine Ends.modify ⟨⟨ha, fun b he _ => ?_⟩, h.seats_place ha.toInsertable _⟩
    rw [← Option.some.inj he, ← h.parent?_eq_some_iff]
    simpa using hp

/-- A node has been put under a parent in front of a reference, or behind all other children of it. -/
structure Inserts (s : Store) (p c : NodeRef) (reference : Option NodeRef) (s' : Store) : Prop where
  wellFormed : s'.WellFormed
  /-- Without a reference the node comes last. -/
  last : reference.bind (·.toOption) = none → s'.children p = (s.children p).filter (· != c) ++ [c]
  /-- In front of a reference it comes right before it, and the other children keep their order. -/
  front : ∀ b, reference = some b → b ≠ .nowhere → b ≠ c → ∃ front back,
    (s.children p).filter (· != c) = front ++ b :: back ∧ s'.children p = front ++ c :: b :: back
  /-- In front of itself it stays where it is. -/
  itself : reference = some c → s'.children p = s.children p
  /-- Another parent that the node had has lost it, and no other child. -/
  former : ∀ q, q ≠ p → s.parent? c = some q → s'.children q = (s.children q).filter (· != c)
  others : ∀ q, q ≠ p → s.parent? c ≠ some q → s'.children q = s.children q
  data : ∀ x, s'.get? x = s.get? x
  below : s'.tree? c = s.tree? c

theorem Seats.inserts (h : s.Seats p c (s.anchor c reference) s') (ha : s.Accepts p c reference) :
    s.Inserts p c reference s' where
  wellFormed := h.reparents.after
  last hn := by
    rw [h.children, anchor, hn]
    exact seat_none _
  front b hb hne hbc := by
    have hanchor : s.anchor c reference = some b := by
      rw [anchor, hb, Option.bind_some, NodeRef.toOption_eq_some.mpr ⟨rfl, hne⟩, Option.bind_some, if_neg hbc]
    have hm : b ∈ (s.children p).filter (· != c) :=
      List.mem_filter.mpr ⟨ha.child b hb hne, by simpa using hbc⟩
    obtain ⟨front, back, hl⟩ := List.append_of_mem hm
    have hn : (front ++ b :: back).Nodup := hl ▸ (h.reparents.before.nodup_children p).filter _
    have hfront : b ∉ front := fun hb => (List.nodup_append.mp hn).2.2 b hb b List.mem_cons_self rfl
    refine ⟨front, back, hl, ?_⟩
    rw [h.children, hanchor, hl]
    exact seat_append front (b :: back) fun x hx => Option.some.inj hx ▸ hfront
  itself hc := by
    have hne : c ≠ .nowhere := by
      rintro rfl
      exact h.reparents.before.cells.nowhere_notMem ha.live.2
    obtain ⟨front, back, hl⟩ := List.append_of_mem (ha.child c hc hne)
    have hanchor : s.anchor c reference = back.head? := by
      rw [anchor, hc, Option.bind_some, NodeRef.toOption_eq_some.mpr ⟨rfl, hne⟩, Option.bind_some, if_pos rfl,
        nextSibling?, h.reparents.before.following_eq hl]
    have hn := h.reparents.before.nodup_children p
    rw [hl] at hn
    rw [h.children, hanchor, hl, filter_ne_of_nodup hn]
    have hdis := (List.nodup_append.mp hn).2.2
    exact seat_append front _ fun b hb hm => hdis b hm b (List.mem_cons_of_mem _ (List.mem_of_head? hb)) rfl
  former q hq _ := h.others q hq
  others q hq hp := by rw [h.others q hq, h.reparents.before.filter_children hp]
  data := h.get?
  below := h.tree?

/-- **An insertion succeeds just if it is acceptable; then it moves the one node, and otherwise nothing
changes.** -/
theorem WellFormed.ends_insertBefore_inserts (h : s.WellFormed) (p c : NodeRef) (reference : Option NodeRef) :
    Ends (insertBefore p c reference) s
      (fun _ s' => s.Accepts p c reference ∧ s.Inserts p c reference s')
      fun s' => ¬ s.Accepts p c reference ∧ s' = s :=
  (h.ends_insertBefore_seats p c reference).mono (fun _ _ hs => ⟨hs.1, hs.2.inserts hs.1⟩) fun _ he => he

/-- The last of two elements is put in front of the first. -/
theorem exists_inserts : ∃ s : Store, s.WellFormed ∧ ∃ x y, s.children .root = [x, y] ∧
    ∃ s', insertBefore .root y (some x) s = .ok () s' ∧ s.Accepts .root y (some x) ∧
      s.Inserts .root y (some x) s' ∧ s'.children .root = [y, x] := by
  obtain ⟨s, h, hc, s', hs, hc'⟩ : ∃ s : Store, s.WellFormed ∧ s.children .root = [.cell 1 0, .cell 2 0] ∧
      ∃ s', insertBefore .root (.cell 2 0) (some (.cell 1 0)) s = .ok () s' ∧
        s'.children .root = [.cell 2 0, .cell 1 0] :=
    ⟨_, wellFormed_new.foldl_apply [.createElement "b", .createElement "i", .appendChild .root (.cell 1 0),
      .appendChild .root (.cell 2 0)], by decide +kernel, _, rfl, by decide +kernel⟩
  obtain ⟨ha, hi⟩ := (h.ends_insertBefore_inserts .root (.cell 2 0) (some (.cell 1 0))).ok hs
  exact ⟨s, h, _, _, hc, s', hs, ha, hi, hc'⟩

end Store

end DomHost
