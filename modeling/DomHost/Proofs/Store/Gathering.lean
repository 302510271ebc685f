import DomHost.Proofs.Store.Siblings
import Mathlib.Data.List.Dedup
import Mathlib.Data.List.TakeWhile

/-!
# Gathering nodes under a parent

Nodes that are put one after the other in front of the same child end in the order of the list, and one that is
listed more than once ends at its last place in it. All other nodes keep their parent and their order, wherever
the listed ones come from.

* `Store.Gathers`: nodes have come between two parts of the children of a node;
* `Store.Gathers.cons`, **`Store.ends_forM_gathers`**: one node after the other, whatever the store is a part of;
* **`Store.WellFormed.ends_insertAllBefore_gathers`**, `Store.WellFormed.ends_insertAfter_gathers`: in front of a
  node and behind it;
* `Store.Supplants`, **`Store.WellFormed.replaceWith_supplants`**: in the place of a node, all or nothing.
-/

namespace DomHost.Store

variable {s s' u : Store} {p c r x old : NodeRef} {before : Option NodeRef} {nodes cs front back : List NodeRef}

/-! ## Lists -/

theorem filter_notMem_cons (l : List NodeRef) (c : NodeRef) (cs : List NodeRef) :
    (l.filter (· != c)).filter (· ∉ cs) = l.filter (· ∉ c :: cs) := by
  rw [List.filter_filter]
  refine List.filter_congr fun x _ => ?_
  by_cases hx : x = c <;> simp [hx]

/-- A list without a node has the same head, unless that is the node. -/
theorem head?_filter_ne {l : List NodeRef} (h : ∀ b ∈ l.head?, b ≠ c) :
    (l.filter (· != c)).head? = l.head? := by
  cases l with
  | nil => rfl
  | cons b l => rw [List.filter_cons_of_pos (by simpa using h b rfl)]; rfl

/-! ## One node after the other -/

theorem Admits.congr (hg : ∀ x, s'.get? x = s.get? x) (ha : s'.ancestors p = s.ancestors p) :
    s'.Admits p x ↔ s.Admits p x := by
  have hget : s'.get? = s.get? := funext hg
  constructor
  · rintro ⟨⟨hp, hx, hn⟩, ht⟩
    rw [hget] at hp hx ht
    exact ⟨⟨hp, hx, ha ▸ hn⟩, ht⟩
  · rintro ⟨⟨hp, hx, hn⟩, ht⟩
    rw [← hget] at hp hx ht
    exact ⟨⟨hp, hx, ha ▸ hn⟩, ht⟩

/-- Nodes have come under a parent, each once, between two parts of its children. Everything else is as it
was. -/
structure Gathers (s : Store) (p : NodeRef) (nodes front back : List NodeRef) (s' : Store) : Prop where
  wellFormed : s'.WellFormed
  children : s'.children p = front.filter (· ∉ nodes) ++ nodes.dedup ++ back.filter (· ∉ nodes)
  /-- Whoever had some of the nodes has lost them. -/
  others : ∀ q, q ≠ p → s'.children q = (s.children q).filter (· ∉ nodes)
  parent? : ∀ x, x ∉ nodes → s'.parent? x = s.parent? x
  data : ∀ x, s'.get? x = s.get? x

namespace Gathers

theorem refl (h : s.WellFormed) (hc : s.children p = front ++ back) : s.Gathers p [] front back s :=
  ⟨h, by simp [hc], by simp, fun _ _ => rfl, fun _ => rfl⟩

/-- **One node takes its seat, then the others gather behind it.** -/
theorem cons (h : s.Seats p c before s')
    (h' : s'.Gathers p cs (front.filter (· != c) ++ [c]) (back.filter (· != c)) u) :
    s.Gathers p (c :: cs) front back u where
  wellFormed := h'.wellFormed
  children := by
    rw [h'.children, List.filter_append, filter_notMem_cons, filter_notMem_cons]
    by_cases hm : c ∈ cs
    · simp [hm, List.dedup_cons_of_mem]
    · simp [hm, List.dedup_cons_of_notMem]
  others q hq := by rw [h'.others q hq, h.others q hq, filter_notMem_cons]
  parent? x hx := by
    obtain ⟨hxc, hxs⟩ := not_or.mp (List.mem_cons.not.mp hx)
    rw [h'.parent? x hxs, h.reparents.parent?, if_neg hxc]
  data x := (h'.data x).trans (h.get? x)

end Gathers

/-- A node that has taken its seat stands between the two parts. -/
theorem Seats.children_append (h : s.Seats p c back.head? s') (hc : s.children p = front ++ back)
    (hn : ∀ b ∈ back.head?, b ≠ c) :
    s'.children p = (front.filter (· != c) ++ [c]) ++ back.filter (· != c) := by
  have hnodup := h.reparents.before.nodup_children p
  rw [hc] at hnodup
  rw [h.children, hc, List.filter_append, ← head?_filter_ne hn, List.append_assoc, List.singleton_append]
  refine seat_append _ _ fun b hb hm => ?_
  have hmem : b ∈ back := List.mem_of_mem_filter (List.mem_of_head? hb)
  exact (List.nodup_append.mp hnodup).2.2 b (List.mem_of_mem_filter hm) b hmem rfl

theorem Seats.admits_iff (h : s.Seats p c before s') : s'.Admits p x ↔ s.Admits p x :=
  Admits.congr h.get? (h.reparents.ancestors (h.reparents.notAbove p rfl))

section Loop

variable {σ ε : Type} {g : σ → Store} {f : NodeRef → EStateM ε σ Unit} {t : σ}

/-- **Nodes that are put in front of a child one after the other gather there**, whatever the store is a part of;
this succeeds just if each of them may be put under the parent. -/
theorem ends_forM_gathers (nodes : List NodeRef) (anchor : Option NodeRef)
    (hf : ∀ c ∈ nodes, ∀ t, (g t).WellFormed → (∀ b ∈ anchor, b ∈ (g t).children p) →
      Ends (f c) t (fun _ t' => (g t).Admits p c ∧ (g t).Seats p c anchor (g t')) fun _ => ¬ (g t).Admits p c)
    (h : (g t).WellFormed) (hc : (g t).children p = front ++ back) (hb : back.head? = anchor)
    (hn : ∀ b ∈ anchor, b ∉ nodes) :
    Ends (nodes.forM f) t
      (fun _ t' => (∀ c ∈ nodes, (g t).Admits p c) ∧ (g t).Gathers p nodes front back (g t'))
      fun _ => ∃ c ∈ nodes, ¬ (g t).Admits p c := by
  induction nodes generalizing t front back with
  | nil => exact Ends.pure ⟨by simp, .refl h hc⟩
  | cons c cs ih =>
    have hne : ∀ b ∈ back.head?, b ≠ c := fun b hm he => hn b (hb ▸ hm) (he ▸ List.mem_cons_self)
    have hone := hf c List.mem_cons_self t h fun b hm => by
      rw [hc]
      exact List.mem_append_right _ (List.mem_of_head? (hb ▸ hm))
    change Ends (f c >>= fun _ => cs.forM f) t _ _
    refine (hone.mono (fun _ _ hs => hs) fun _ he => ⟨c, List.mem_cons_self, he⟩).bind ?_
    rintro _ t' ⟨hadm, hseat⟩
    have hchildren := Seats.children_append (hb ▸ hseat) hc hne
    have hrest := ih (fun d hd => hf d (List.mem_cons_of_mem _ hd)) hseat.reparents.after hchildren
      ((head?_filter_ne hne).trans hb) fun b hm hd => hn b hm (List.mem_cons_of_mem _ hd)
    refine hrest.mono ?_ ?_
    · rintro _ u ⟨hall, hgather⟩
      refine ⟨List.forall_mem_cons.mpr ⟨hadm, fun d hd => hseat.admits_iff.mp (hall d hd)⟩, ?_⟩
      exact .cons hseat hgather
    · rintro _ ⟨d, hd, hnot⟩
      exact ⟨d, List.mem_cons_of_mem _ hd, fun ha => hnot (hseat.admits_iff.mpr ha)⟩

end Loop

/-- The parts may be divided at any of the nodes that have come. -/
theorem Gathers.split (h : s.Gathers p nodes (front ++ cs) back s') (hcs : ∀ c ∈ cs, c ∈ nodes) :
    s.Gathers p nodes front (cs ++ back) s' := by
  have hnil : cs.filter (· ∉ nodes) = [] := List.filter_eq_nil_iff.mpr fun c hm => by simpa using hcs c hm
  refine { h with children := ?_ }
  rw [h.children, List.filter_append, List.filter_append, hnil, List.append_nil, List.nil_append]

namespace WellFormed

/-- A node that comes in front of another child takes the seat there. -/
theorem ends_insertBefore_anchor (h : s.WellFormed) (p c : NodeRef) (hb : ∀ b ∈ before, b ∈ s.children p)
    (hc : ∀ b ∈ before, b ≠ c) :
    Ends (insertBefore p c before) s (fun _ s' => s.Admits p c ∧ s.Seats p c before s')
      fun s' => s' = s ∧ ¬ s.Admits p c := by
  have hanchor : s.anchor c before = before := by
    cases before with
    | none => rfl
    | some b =>
      have hne : b ≠ .nowhere := by
        rintro rfl
        exact h.cells.nowhere_notMem (live_of_child (hb _ rfl)).2
      rw [anchor, Option.bind_some, NodeRef.toOption_eq_some.mpr ⟨rfl, hne⟩, Option.bind_some, if_neg (hc b rfl)]
  refine (h.ends_insertBefore_seats p c before).mono ?_ ?_
  · rintro _ s' ⟨ha, hs⟩
    exact ⟨ha.toAdmits, hanchor ▸ hs⟩
  · rintro s' ⟨hn, hs⟩
    exact ⟨hs, fun ha => hn ⟨ha, fun b he _ => hb b he⟩⟩

/-- **Nodes are inserted in front of the first candidate that is not one of them.** -/
theorem ends_insertAt_gathers (h : s.WellFormed) (nodes : List NodeRef) (hc : s.children p = front ++ back) :
    Ends (insertAt p nodes back) s
      (fun _ s' => (∀ c ∈ nodes, s.Admits p c) ∧ s.Gathers p nodes front back s')
      fun _ => ∃ c ∈ nodes, ¬ s.Admits p c := by
  have hback : back.takeWhile nodes.contains ++ back.dropWhile nodes.contains = back :=
    List.takeWhile_append_dropWhile
  have hanchor : back.find? (!nodes.contains ·) = (back.dropWhile nodes.contains).head? :=
    List.find?_not_eq_head?_dropWhile _ _
  have hn : ∀ b ∈ (back.dropWhile nodes.contains).head?, b ∉ nodes := fun b hb => by
    rw [← hanchor] at hb
    simpa using List.find?_some hb
  rw [← hback, ← List.append_assoc] at hc
  have hloop := ends_forM_gathers (g := id) (t := s) (p := p) (f := (insertBefore p · _)) nodes _
    (fun c hm t ht hb => (ht.ends_insertBefore_anchor p c hb fun b hb he => hn b hb (he ▸ hm)).mono
      (fun _ _ hs => hs) fun _ he => he.2) h hc rfl hn
  unfold insertAt
  rw [hanchor]
  refine hloop.mono (fun _ s' hs => ⟨hs.1, ?_⟩) fun _ he => he
  have hsplit := hs.2.split fun c hm => by simpa using List.mem_takeWhile_imp hm
  rwa [hback] at hsplit

/-- **In front of a node gather the nodes that come before it.** -/
theorem ends_insertAllBefore_gathers (h : s.WellFormed) (nodes : List NodeRef)
    (hc : s.children p = front ++ r :: back) :
    Ends (insertAllBefore r nodes) s
      (fun _ s' => (∀ c ∈ nodes, s.Admits p c) ∧ s.Gathers p nodes front (r :: back) s')
      fun _ => ∃ c ∈ nodes, ¬ s.Admits p c := by
  have hp : s.parent? r = some p := h.parent?_eq_some_iff.mpr (by simp [hc])
  unfold insertAllBefore
  refine Ends.get_bind ?_
  simp only [hp]
  refine Ends.get_bind ?_
  rw [h.following_eq hc]
  exact h.ends_insertAt_gathers nodes hc

/-- **Behind a node gather the nodes that come after it.** -/
theorem ends_insertAfter_gathers (h : s.WellFormed) (nodes : List NodeRef)
    (hc : s.children p = front ++ r :: back) :
    Ends (insertAfter r nodes) s
      (fun _ s' => (∀ c ∈ nodes, s.Admits p c) ∧ s.Gathers p nodes (front ++ [r]) back s')
      fun _ => ∃ c ∈ nodes, ¬ s.Admits p c := by
  have hp : s.parent? r = some p := h.parent?_eq_some_iff.mpr (by simp [hc])
  unfold insertAfter
  refine Ends.get_bind ?_
  simp only [hp]
  refine Ends.get_bind ?_
  rw [h.following_eq hc]
  exact h.ends_insertAt_gathers nodes (by rw [hc, List.append_assoc, List.singleton_append])

end WellFormed

/-- Nothing is inserted in front of a detached node, nor behind it. -/
theorem insert_of_detached (hr : s.Live r) (hp : s.parent? r = none) (nodes : List NodeRef) :
    insertAllBefore r nodes s = .ok () s ∧ insertAfter r nodes s = .ok () s := by
  constructor
  · unfold insertAllBefore
    rw [get_bind_apply]
    simp only [hp, discard_require_of_live hr]
  · unfold insertAfter
    rw [get_bind_apply]
    simp only [hp, discard_require_of_live hr]

/-! ## In the place of a node -/

/-- Nodes have come in the place of a node. Unless it is one of them it is detached. -/
structure Supplants (s : Store) (old p : NodeRef) (nodes front back : List NodeRef) (s' : Store) : Prop where
  wellFormed : s'.WellFormed
  children : s'.children p = front.filter (· ∉ nodes) ++ nodes.dedup ++ back.filter (· ∉ nodes)
  detached : old ∉ nodes → s'.Live old ∧ s'.parent? old = none
  others : ∀ q, q ≠ p → s'.children q = (s.children q).filter (· ∉ nodes)
  parent? : ∀ x, x ∉ nodes → x ≠ old → s'.parent? x = s.parent? x
  data : ∀ x, s'.get? x = s.get? x

/-- A node that is one of those that come takes part in it like the others. -/
theorem Gathers.supplants (hg : s.Gathers p nodes (front ++ [old]) back s') (hold : old ∈ nodes) :
    s.Supplants old p nodes front back s' := by
  have hlisted : ∀ c ∈ [old], c ∈ nodes := fun c hc => List.mem_singleton.mp hc ▸ hold
  have hsplit := (hg.split hlisted).children
  refine ⟨hg.wellFormed, ?_, fun hn => absurd hold hn, hg.others, fun x hx _ => hg.parent? x hx, hg.data⟩
  rw [hsplit, List.singleton_append, List.filter_cons_of_neg (by simpa using hold)]

/-- A detached node has no place where others could come. -/
theorem replaceWith_of_detached (hl : s.Live old) (hp : s.parent? old = none) (nodes : List NodeRef) :
    replaceWith old nodes s = .ok () s := by
  unfold replaceWith
  rw [get_bind_apply]
  simp only [hp, discard_require_of_live hl]

/-- All nodes are checked before the first one moves. -/
theorem ends_checkInsertions_admits (s : Store) (p : NodeRef) (nodes : List NodeRef) :
    Ends (nodes.forM (checkInsertion p)) s (fun _ s' => s' = s ∧ ∀ c ∈ nodes, s.Admits p c)
      fun s' => (∃ c ∈ nodes, ¬ s.Admits p c) ∧ s' = s := by
  induction nodes with
  | nil => exact Ends.pure ⟨rfl, by simp⟩
  | cons c cs ih =>
    change Ends (checkInsertion p c >>= fun _ => cs.forM (checkInsertion p)) s _ _
    refine ((ends_checkInsertion_admits s p c).mono (fun _ _ he => he) fun _ he =>
      ⟨⟨c, List.mem_cons_self, he.2⟩, he.1⟩).bind ?_
    rintro _ _ ⟨rfl, hadm⟩
    refine ih.mono (fun _ _ he => ⟨he.1, List.forall_mem_cons.mpr ⟨hadm, he.2⟩⟩) ?_
    rintro _ ⟨⟨d, hd, hnot⟩, rfl⟩
    exact ⟨⟨d, List.mem_cons_of_mem _ hd, hnot⟩, rfl⟩

namespace WellFormed

/-- A node that is taken out is not in the way of those that come. -/
theorem supplants_of_takeOut (h : s.WellFormed) (hc : s.children p = front ++ old :: back) (hold : old ∉ nodes)
    (hg : (s.takeOut old).Gathers p nodes front back s') : s.Supplants old p nodes front back s' := by
  have hr := h.takeOut old
  have hp : s.parent? old = some p := h.parent?_eq_some_iff.mpr (by simp [hc])
  refine ⟨hg.wellFormed, hg.children, fun _ => ?_, fun q hq => ?_, fun x hx hne => ?_, fun x => ?_⟩
  · obtain ⟨d, hd⟩ := Option.isSome_iff_exists.mp (get?_isSome_iff.mpr (h.parent?_isSome hp).1)
    rw [← h.get?_takeOut old, ← hg.data] at hd
    refine ⟨get?_isSome_iff.mp (by rw [hd]; rfl), ?_⟩
    rw [hg.parent? old hold, hr.parent?, if_pos rfl]
  · have hne : s.parent? old ≠ some q := fun he => hq (Option.some.inj (he.symm.trans hp))
    rw [hg.others q hq, h.children_takeOut, h.filter_children hne]
  · rw [hg.parent? x hx, hr.parent?, if_neg hne]
  · exact (hg.data x).trans (h.get?_takeOut old x)

theorem admits_takeOut (h : s.WellFormed) (hp : s.parent? old = some p) :
    (s.takeOut old).Admits p x ↔ s.Admits p x :=
  Admits.congr (h.get?_takeOut old) ((h.takeOut old).ancestors (h.notMem_ancestors_of_parent? hp))

/-- Nodes come in the place of another one if all of them may, and otherwise nothing changes. -/
theorem ends_replaceWith_supplants (h : s.WellFormed) (nodes : List NodeRef)
    (hc : s.children p = front ++ old :: back) :
    Ends (replaceWith old nodes) s
      (fun _ s' => (∀ c ∈ nodes, s.Admits p c) ∧ s.Supplants old p nodes front back s')
      fun s' => (∃ c ∈ nodes, ¬ s.Admits p c) ∧ s' = s := by
  have hp : s.parent? old = some p := h.parent?_eq_some_iff.mpr (by simp [hc])
  unfold replaceWith
  refine Ends.get_bind ?_
  simp only [hp]
  refine (ends_checkInsertions_admits s p nodes).bind ?_
  rintro _ s ⟨rfl, hall⟩
  -- from here on nothing is refused
  refine Ends.get_bind ?_
  rw [h.following_eq hc]
  refine Ends.ite (fun hm => ?_) fun hm => ?_
  · have hold : old ∈ nodes := by simpa using hm
    have hbehind : s.children p = (front ++ [old]) ++ back := by
      rw [hc, List.append_assoc, List.singleton_append]
    exact (h.ends_insertAt_gathers nodes hbehind).mono (fun _ _ hs => ⟨hall, hs.2.supplants hold⟩)
      fun _ ⟨c, hm, hnot⟩ => absurd (hall c hm) hnot
  · have hold : old ∉ nodes := by simpa using hm
    have hout : detach old s = .ok () (s.takeOut old) :=
      bind_of_ok (discard_require_of_live (h.parent?_isSome hp).1)
    refine (Ends.of_eq (Q := fun _ u => u = s.takeOut old) hout rfl).bind ?_
    rintro _ _ rfl
    have hr := h.takeOut old
    have hchildren : (s.takeOut old).children p = front ++ back := by
      have hn := h.nodup_children p
      rw [hc] at hn
      rw [h.children_takeOut, hc, filter_ne_of_nodup hn]
    refine (hr.after.ends_insertAt_gathers nodes hchildren).mono (fun _ s' hs => ⟨hall, ?_⟩) ?_
    · exact h.supplants_of_takeOut hc hold hs.2
    · rintro _ ⟨c, hm, hnot⟩
      exact absurd ((h.admits_takeOut hp).mpr (hall c hm)) hnot

/-- **Replacing a node is exact, and it is refused as a whole.** A detached node has no place, and nothing comes
there. -/
theorem replaceWith_supplants (h : s.WellFormed) (old : NodeRef) (nodes : List NodeRef) :
    (s.Live old → s.parent? old = none → replaceWith old nodes s = .ok () s) ∧
      ∀ p front back, s.children p = front ++ old :: back →
        Ends (replaceWith old nodes) s
          (fun _ s' => (∀ c ∈ nodes, s.Admits p c) ∧ s.Supplants old p nodes front back s')
          fun s' => (∃ c ∈ nodes, ¬ s.Admits p c) ∧ s' = s :=
  ⟨fun hl hp => replaceWith_of_detached hl hp nodes, fun _ _ _ hc => h.ends_replaceWith_supplants nodes hc⟩

end WellFormed

/-- The siblings of an element come in its place, one of them named twice, and nothing comes in the place of a
detached element. -/
theorem exists_supplants : ∃ s : Store, s.WellFormed ∧ ∃ x y z w, s.children .root = [x, y, z] ∧
    (∃ s', replaceWith y [z, x, z] s = .ok () s' ∧ (∀ c ∈ [z, x, z], s.Admits .root c) ∧
      s.Supplants y .root [z, x, z] [x] [z] s' ∧ s'.children .root = [x, z] ∧ s'.parent? y = none) ∧
    s.Live w ∧ s.parent? w = none ∧ replaceWith w [x] s = .ok () s := by
  obtain ⟨s, h, hc, ⟨s', hs, hc'⟩, hl, hp⟩ : ∃ s : Store, s.WellFormed ∧
      s.children .root = [.cell 1 0, .cell 2 0, .cell 3 0] ∧
      (∃ s', replaceWith (.cell 2 0) [.cell 3 0, .cell 1 0, .cell 3 0] s = .ok () s' ∧
        s'.children .root = [.cell 1 0, .cell 3 0]) ∧
      (s.get? (.cell 4 0)).isSome = true ∧ s.parent? (.cell 4 0) = none :=
    ⟨_, wellFormed_new.foldl_apply [.createElement "b", .createElement "i", .createElement "u",
      .createElement "s", .appendChild .root (.cell 1 0), .appendChild .root (.cell 2 0),
      .appendChild .root (.cell 3 0)],
      by decide +kernel, ⟨_, rfl, by decide +kernel⟩, by decide +kernel, by decide +kernel⟩
  have hlive := get?_isSome_iff.mp hl
  have hends := (h.replaceWith_supplants (.cell 2 0) [.cell 3 0, .cell 1 0, .cell 3 0]).2 .root
    [.cell 1 0] [.cell 3 0] hc
  have hstays := (h.replaceWith_supplants (.cell 4 0) [.cell 1 0]).1 hlive hp
  obtain ⟨hadm, hsup⟩ := hends.ok hs
  exact ⟨s, h, _, _, _, _, hc, ⟨s', hs, hadm, hsup, hc', (hsup.detached (by decide)).2⟩, hlive, hp, hstays⟩

end DomHost.Store
