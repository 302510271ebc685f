import DomHost.Proofs.Cautious
import DomHost.Proofs.Store.Accounts
import DomHost.Proofs.Store.Gathering
import DomHost.Proofs.Store.TextContent

/-!
# New children in the place of the old ones

Nodes that come in the place of all children of a node gather under it, each at its last place in the list. The
old children are let go before the first new one is checked, so a refusal comes too late: the nodes in front of
the refused one are the children then.

* `Ends.forM_front`: a loop that stops at the first value that is refused;
* `Store.WellFormed.children_scatter`, `Store.WellFormed.ancestors_scatter`: children that are let go;
* `Store.Refurnishes`: other nodes are the children of a node;
* `Store.SameTree`, **`Store.Refurnishes.sameTree_iff`**: trees between which nothing tells a difference;
* **`Document.ends_replaceChildren_refurnishes`**: the outcome, for all nodes and lists of nodes;
* `Document.AllOrNothing`, **`Document.replaceChildren_allOrNothing`**: the lists with which a replacement is all
  or nothing, and no others.
-/

namespace DomHost

/-- **A loop that stops at the first value that is refused has gone through the values in front of it.** -/
theorem Ends.forM_front {ε σ α : Type} {f : α → EStateM ε σ PUnit} {P : α → Prop} {I : List α → σ → Prop}
    (hf : ∀ front a s, I front s → Ends (f a) s (fun _ t => P a ∧ I (front ++ [a]) t) fun t => ¬ P a ∧ t = s)
    (l done : List α) {s : σ} (h : I done s) :
    Ends (l.forM f) s (fun _ t => (∀ a ∈ l, P a) ∧ I (done ++ l) t) fun t =>
      ∃ front a back, l = front ++ a :: back ∧ (∀ x ∈ front, P x) ∧ ¬ P a ∧ I (done ++ front) t := by
  induction l generalizing done s with
  | nil => exact Ends.pure ⟨by simp, by rwa [List.append_nil]⟩
  | cons a l ih =>
    change Ends (f a >>= fun _ => l.forM f) s _ _
    refine ((hf done a s h).mono (fun _ _ ht => ht) ?_).bind ?_
    · rintro _ ⟨hn, rfl⟩
      exact ⟨[], a, l, rfl, by simp, hn, by rwa [List.append_nil]⟩
    rintro _ t ⟨ha, ht⟩
    refine (ih (done ++ [a]) ht).mono ?_ ?_
    · rintro _ u ⟨hall, hu⟩
      rw [List.append_assoc, List.singleton_append] at hu
      exact ⟨List.forall_mem_cons.mpr ⟨ha, hall⟩, hu⟩
    · rintro u ⟨front, b, back, rfl, hall, hn, hu⟩
      rw [List.append_assoc, List.singleton_append] at hu
      exact ⟨a :: front, b, back, rfl, List.forall_mem_cons.mpr ⟨ha, hall⟩, hn, hu⟩

/-- The first value that is refused has one place. -/
theorem eq_front_of_first {α : Type} {P : α → Prop} {front front' back back' : List α} {a a' : α}
    (h : front ++ a :: back = front' ++ a' :: back') (hf : ∀ x ∈ front, P x) (ha : ¬ P a)
    (hf' : ∀ x ∈ front', P x) (ha' : ¬ P a') : front = front' := by
  induction front generalizing front' with
  | nil =>
    cases front' with
    | nil => rfl
    | cons b front' =>
      obtain ⟨rfl, -⟩ := List.cons.inj h
      exact absurd (hf' _ List.mem_cons_self) ha
  | cons b front ih =>
    cases front' with
    | nil =>
      obtain ⟨rfl, -⟩ := List.cons.inj h
      exact absurd (hf _ List.mem_cons_self) ha'
    | cons b' front' =>
      obtain ⟨rfl, hrest⟩ := List.cons.inj h
      rw [ih hrest (List.forall_mem_cons.mp hf).2 (List.forall_mem_cons.mp hf').2]

namespace Store

variable {s s' u : Store} {p r c x q : NodeRef} {n : Node} {k : Forest Node} {nodes cs front : List NodeRef}

/-! ## Children that are let go -/

theorem refills_scatter (ht : s.tree? r = some (n, k)) : s.Refills r k .nil (s.scatter r) where
  forest := by rw [scatter_of_tree? ht]
  apart x _ hx m hm he := hx (by rw [below_of_tree? ht]; exact List.mem_map.mpr ⟨m, hm, is_iff.mp he⟩)
  fresh _ _ _ _ hm := absurd hm List.not_mem_nil

namespace WellFormed

theorem get?_scatter (h : s.WellFormed) (r x : NodeRef) : (s.scatter r).get? x = s.get? x :=
  h.distinct.get?_congr (h.scatter r).distinct (h.distinct.perm_scatter r) x

/-- **A node whose children are let go has none, and all others keep theirs.** -/
theorem children_scatter (h : s.WellFormed) (r q : NodeRef) :
    (s.scatter r).children q = if q = r then [] else s.children q := by
  by_cases hr : s.Live r
  swap
  · have hscatter := h.scatter_eq_self (children_eq_nil hr)
    rw [hscatter]
    split
    · rename_i hq
      rw [hq, children_eq_nil hr]
    · rfl
  obtain ⟨n, k, ht⟩ := exists_tree? hr
  split
  · rename_i hq
    rw [hq, children_of_tree? (tree?_scatter h.distinct ht)]
    rfl
  rename_i hq
  by_cases hl : s.Live q
  swap
  · have hgone : ¬ (s.scatter r).Live q := fun hl' => hl (by
      rw [← get?_isSome_iff, h.get?_scatter] at hl'
      exact get?_isSome_iff.mp hl')
    rw [children_eq_nil hl, children_eq_nil hgone]
  by_cases hb : q ∈ s.below r
  · -- a node below the given one is in one of the trees that are let go
    rw [below_of_tree? ht] at hb
    obtain ⟨m, hm, rfl⟩ := List.mem_map.mp hb
    obtain ⟨v, hv⟩ := Forest.exists_find? hm (is_iff.mpr rfl)
    obtain ⟨hvt, hvr⟩ := Forest.mem_trees_of_find? hv
    have hfound : (s.scatter r).tree? m.ref = some v := by
      rw [scatter_of_tree? ht, tree?, Forest.find?_append, hv, Option.some_or]
    have htree := h.tree?_eq_some (Forest.mem_trees_of_mem_below (mem_trees_of_tree? ht).1 hvt)
    rw [is_iff.mp hvr] at htree
    rw [children_of_tree? hfound, children_of_tree? htree]
  · exact (refills_scatter ht).children_eq h.distinct hl hb hq

theorem parent?_scatter (h : s.WellFormed) (r x : NodeRef) :
    (s.scatter r).parent? x = if x ∈ s.children r then none else s.parent? x := by
  have h' := h.scatter r
  refine Option.ext fun q => ?_
  rw [h'.parent?_eq_some_iff, h.children_scatter]
  split <;> split
  · simp
  · rename_i hq hx
    rw [h.parent?_eq_some_iff, hq]
    simp [hx]
  · rename_i hq hx
    have hp := h.parent?_eq_some_iff.mpr hx
    refine iff_of_false (fun hm => hq ?_) (by simp)
    exact Option.some.inj ((h.parent?_eq_some_iff.mpr hm).symm.trans hp)
  · rw [h.parent?_eq_some_iff]

theorem ancestors_scatter (h : s.WellFormed) (r : NodeRef) : (s.scatter r).ancestors r = s.ancestors r := by
  by_cases hr : s.Live r
  · obtain ⟨n, k, ht⟩ := exists_tree? hr
    exact (refills_scatter ht).ancestors_eq h.distinct hr (h.distinct.descendants_eq_cons hr).2
  · rw [h.scatter_eq_self (children_eq_nil hr)]

/-- The rules let the same nodes in under a node whose children are let go. -/
theorem admits_scatter (h : s.WellFormed) : (s.scatter r).Admits r x ↔ s.Admits r x :=
  Admits.congr (h.get?_scatter r) (h.ancestors_scatter r)

end WellFormed

/-! ## Other children -/

theorem dedup_concat (cs : List NodeRef) (c : NodeRef) : (cs ++ [c]).dedup = cs.dedup.filter (· != c) ++ [c] := by
  induction cs with
  | nil => rfl
  | cons a cs ih =>
    rw [List.cons_append]
    by_cases ha : a ∈ cs
    · rw [List.dedup_cons_of_mem (List.mem_append_left _ ha), List.dedup_cons_of_mem ha, ih]
    by_cases hac : a = c
    · subst hac
      rw [List.dedup_cons_of_mem (by simp), List.dedup_cons_of_notMem ha, ih, List.filter_cons_of_neg (by simp)]
    · rw [List.dedup_cons_of_notMem (by simp [ha, hac]), List.dedup_cons_of_notMem ha, ih,
        List.filter_cons_of_pos (by simpa using hac), List.cons_append]

theorem filter_notMem_concat (l : List NodeRef) (cs : List NodeRef) (c : NodeRef) :
    (l.filter (· ∉ cs)).filter (· != c) = l.filter (· ∉ cs ++ [c]) := by
  rw [List.filter_filter]
  refine List.filter_congr fun x _ => ?_
  by_cases hx : x = c <;> simp [hx]

/-- A node that comes last gathers behind those that came before it. -/
theorem Gathers.concat (h : s.Gathers p cs front [] s') (h' : s'.Seats p c none u) :
    s.Gathers p (cs ++ [c]) front [] u where
  wellFormed := h'.reparents.after
  children := by
    rw [h'.children, h.children, seat_none, dedup_concat, List.filter_nil, List.filter_nil, List.append_nil,
      List.append_nil, List.filter_append, filter_notMem_concat, List.append_assoc]
  others q hq := by rw [h'.others q hq, h.others q hq, filter_notMem_concat]
  parent? x hx := by
    obtain ⟨hxs, hxc⟩ := not_or.mp (List.mem_append.not.mp hx)
    rw [h'.reparents.parent?, if_neg fun he => hxc (List.mem_singleton.mpr he), h.parent? x hxs]
  data x := (h'.get? x).trans (h.data x)

/-- Nodes have come in the place of all children of a node. -/
structure Refurnishes (s : Store) (p : NodeRef) (nodes : List NodeRef) (s' : Store) : Prop where
  wellFormed : s'.WellFormed
  /-- Each of the nodes is a child once, at its last place in the list. -/
  children : s'.children p = nodes.dedup
  /-- Old children that are not among the nodes are detached. -/
  detached : ∀ c ∈ s.children p, c ∉ nodes → s'.Live c ∧ s'.parent? c = none
  /-- Whoever had some of the nodes has lost them, and nothing else. -/
  others : ∀ q, q ≠ p → s'.children q = (s.children q).filter (· ∉ nodes)
  parent? : ∀ x, x ∉ nodes → x ∉ s.children p → s'.parent? x = s.parent? x
  data : ∀ x, s'.get? x = s.get? x

/-- Nodes that gather under a node whose children were let go are its children. -/
theorem Gathers.refurnishes (h : s.WellFormed) (hg : (s.scatter p).Gathers p nodes [] [] s') :
    s.Refurnishes p nodes s' where
  wellFormed := hg.wellFormed
  children := by
    rw [hg.children, List.filter_nil, List.nil_append, List.append_nil]
  detached c hc hn := by
    have hdata : s'.get? c = s.get? c := (hg.data c).trans (h.get?_scatter p c)
    refine ⟨?_, by rw [hg.parent? c hn, h.parent?_scatter, if_pos hc]⟩
    rw [← get?_isSome_iff, hdata, get?_isSome_iff]
    exact (live_of_child hc).2
  others q hq := by rw [hg.others q hq, h.children_scatter, if_neg hq]
  parent? x hx hc := by rw [hg.parent? x hx, h.parent?_scatter, if_neg hc]
  data x := (hg.data x).trans (h.get?_scatter p x)

/-- Two stores whose nodes have the same data and the same places. -/
structure SameTree (s s' : Store) : Prop where
  data : ∀ x, s'.get? x = s.get? x
  children : ∀ x, s'.children x = s.children x
  parent? : ∀ x, s'.parent? x = s.parent? x

theorem SameTree.refl (s : Store) : s.SameTree s := ⟨fun _ => rfl, fun _ => rfl, fun _ => rfl⟩

/-- **The tree is what it was just if the new children are the old ones.** -/
theorem Refurnishes.sameTree_iff (h : s.WellFormed) (hf : s.Refurnishes p nodes s') :
    s.SameTree s' ↔ nodes.dedup = s.children p := by
  refine ⟨fun hs => hf.children.symm.trans (hs.children p), fun hc => ?_⟩
  have hmem : ∀ x ∈ nodes, s.parent? x = some p := fun x hx => by
    rw [h.parent?_eq_some_iff, ← hc, List.mem_dedup]
    exact hx
  have hchildren : ∀ q, s'.children q = s.children q := fun q => by
    by_cases hq : q = p
    · rw [hq, hf.children, hc]
    · rw [hf.others q hq, List.filter_eq_self]
      intro x hx
      have hp := h.parent?_eq_some_iff.mpr hx
      simpa using fun hm => hq (Option.some.inj (hp.symm.trans (hmem x hm)))
  refine ⟨hf.data, hchildren, fun x => Option.ext fun q => ?_⟩
  rw [h.parent?_eq_some_iff, hf.wellFormed.parent?_eq_some_iff, hchildren]

/-- A live node that may have children. -/
def Container (s : Store) (p : NodeRef) : Prop := ∃ data, s.get? p = some data ∧ data.isContainer = true

end Store

namespace Document

variable {d : Document} {r : NodeRef} {nodes front front' : List NodeRef}

/-! ## The outcome -/

/-- Nodes that become the last child one after the other gather, up to the first that may not. -/
theorem ends_appendEach (h : d.store.WellFormed) (hc : d.store.children r = []) (nodes : List NodeRef) :
    Ends (nodes.forM fun c => onStore (Store.appendChild r c)) d
      (fun _ d' => (∀ c ∈ nodes, d.store.Admits r c) ∧
        ∃ t, d' = { d with store := t } ∧ d.store.Gathers r nodes [] [] t)
      fun d' => ∃ front c back, nodes = front ++ c :: back ∧ (∀ x ∈ front, d.store.Admits r x) ∧
        ¬ d.store.Admits r c ∧ ∃ t, d' = { d with store := t } ∧ d.store.Gathers r front [] [] t := by
  -- what gathers under the node does not change which nodes may come there
  have hloop := Ends.forM_front (f := fun c => onStore (Store.appendChild r c)) (P := d.store.Admits r)
    (I := fun done d' => ∃ t, d' = { d with store := t } ∧ d.store.Gathers r done [] [] t ∧
      ∀ x, t.Admits r x ↔ d.store.Admits r x) ?_ nodes [] (s := d) ⟨_, rfl, .refl h hc, fun _ => Iff.rfl⟩
  · refine hloop.mono ?_ ?_
    · rintro _ _ ⟨hall, t, rfl, hg, -⟩
      exact ⟨hall, t, rfl, hg⟩
    · rintro _ ⟨front, c, back, he, hall, hn, t, rfl, hg, -⟩
      exact ⟨front, c, back, he, hall, hn, t, rfl, hg⟩
  rintro front c _ ⟨t, rfl, hg, hadm⟩
  refine (ends_onStore_with (hg.wellFormed.ends_insertBefore_anchor r c (by simp) (by simp))).mono ?_ ?_
  · rintro _ _ ⟨u, rfl, ha, hseat⟩
    exact ⟨(hadm c).mp ha, u, rfl, hg.concat hseat, fun x => hseat.admits_iff.trans (hadm x)⟩
  · rintro _ ⟨_, rfl, rfl, hn⟩
    exact ⟨fun ha => hn ((hadm c).mpr ha), rfl⟩

/-- Nodes have come in the place of all children of a node, and the rest of the document is as it was. -/
def Refurnishes (d : Document) (r : NodeRef) (nodes : List NodeRef) (d' : Document) : Prop :=
  ∃ t, d' = { d with store := t } ∧ d.store.Refurnishes r nodes t

/-- The nodes of a list in front of the first that may not be put under a node. -/
def FirstRefused (d : Document) (r : NodeRef) (nodes front : List NodeRef) : Prop :=
  ∃ c back, nodes = front ++ c :: back ∧ (∀ x ∈ front, d.store.Admits r x) ∧ ¬ d.store.Admits r c

theorem FirstRefused.unique (h : d.FirstRefused r nodes front) (h' : d.FirstRefused r nodes front') :
    front = front' := by
  obtain ⟨c, back, rfl, hall, hn⟩ := h
  obtain ⟨c', back', he, hall', hn'⟩ := h'
  exact eq_front_of_first he hall hn hall' hn'

/-- **New children come if all of them may, and otherwise those in front of the first that may not.** -/
theorem ends_replaceChildren_refurnishes (h : d.store.WellFormed) (r : NodeRef) (nodes : List NodeRef) :
    Ends (replaceChildren r nodes) d
      (fun _ d' => d.store.Container r ∧ (∀ c ∈ nodes, d.store.Admits r c) ∧ d.Refurnishes r nodes d')
      fun d' => (¬ d.store.Container r ∧ d' = d) ∨
        d.store.Container r ∧ ∃ front, d.FirstRefused r nodes front ∧ d.Refurnishes r front d' := by
  have hrequire : Ends (onStore (Store.require r)) d (fun data d' => d' = d ∧ d.store.get? r = some data)
      fun d' => ¬ d.store.Container r ∧ d' = d := by
    refine (ends_onStore_with (Store.ends_require_live d.store r)).mono ?_ ?_
    · rintro data _ ⟨_, rfl, rfl, hdata⟩
      exact ⟨rfl, hdata⟩
    · rintro _ ⟨_, rfl, rfl, hl⟩
      refine ⟨?_, rfl⟩
      rintro ⟨data, hdata, -⟩
      exact hl (Store.get?_isSome_iff.mp (by rw [hdata]; rfl))
  unfold replaceChildren
  refine (hrequire.mono (fun _ _ h => h) fun _ h => Or.inl h).bind ?_
  rintro data d ⟨rfl, hdata⟩
  refine Ends.ite (fun hc => ?_) fun hc => Ends.throw_bind (Or.inl ⟨?_, rfl⟩)
  swap
  · rintro ⟨data', hdata', hc'⟩
    obtain rfl := Option.some.inj (hdata.symm.trans hdata')
    exact hc hc'
  have hcont : d.store.Container r := ⟨data, hdata, hc⟩
  have hclear : onStore (Store.clearChildren r) d = .ok () { d with store := d.store.scatter r } :=
    onStore_of_ok rfl
  refine (Ends.of_eq (Q := fun _ t => t = { d with store := d.store.scatter r }) hclear rfl).bind ?_
  rintro _ _ rfl
  have hempty : (d.store.scatter r).children r = [] := by rw [h.children_scatter, if_pos rfl]
  refine (ends_appendEach (d := { d with store := d.store.scatter r }) (h.scatter r) hempty nodes).mono ?_ ?_
  · rintro _ _ ⟨hall, t, rfl, hg⟩
    exact ⟨hcont, fun c hm => h.admits_scatter.mp (hall c hm), t, rfl, hg.refurnishes h⟩
  · rintro _ ⟨front, c, back, he, hall, hn, t, rfl, hg⟩
    have hfirst : d.FirstRefused r nodes front :=
      ⟨c, back, he, fun x hx => h.admits_scatter.mp (hall x hx), fun ha => hn (h.admits_scatter.mpr ha)⟩
    exact Or.inr ⟨hcont, front, hfirst, t, rfl, hg.refurnishes h⟩

/-! ## All or nothing -/

/-- Nodes come in the place of all children of a node, or an error leaves the tree as it is. -/
def AllOrNothing (d : Document) (r : NodeRef) (nodes : List NodeRef) : Prop :=
  Ends (replaceChildren r nodes) d (fun _ d' => d.Refurnishes r nodes d')
    fun d' => ∃ t, d' = { d with store := t } ∧ d.store.SameTree t

/-- **A replacement of children is all or nothing just if no node is refused, or those in front of the first that is
refused are the children already.** Otherwise the children are lost, and those in front are in their place. -/
theorem replaceChildren_allOrNothing (h : d.store.WellFormed) (r : NodeRef) (nodes : List NodeRef) :
    Ends (replaceChildren r nodes) d
      (fun _ d' => d.store.Container r ∧ (∀ c ∈ nodes, d.store.Admits r c) ∧ d.Refurnishes r nodes d')
      (fun d' => (¬ d.store.Container r ∧ d' = d) ∨
        d.store.Container r ∧ ∃ front, d.FirstRefused r nodes front ∧ d.Refurnishes r front d') ∧
    (d.AllOrNothing r nodes ↔
      d.store.Container r → ∀ front, d.FirstRefused r nodes front → front.dedup = d.store.children r) := by
  have hends := ends_replaceChildren_refurnishes h r nodes
  refine ⟨hends, fun hall hcont front hfirst => ?_, fun hsame => ?_⟩
  · cases hrun : replaceChildren r nodes d with
    | ok _ d' =>
      obtain ⟨c, back, rfl, -, hn⟩ := hfirst
      exact absurd ((hends.ok hrun).2.1 c (by simp)) hn
    | error e d' =>
      obtain ⟨t, ht, htree⟩ := hall.error hrun
      obtain ⟨hn, -⟩ | ⟨-, front', hfirst', u, hu, hf⟩ := hends.error hrun
      · exact absurd hcont hn
      obtain rfl : t = u := congrArg Document.store (ht.symm.trans hu)
      exact hfirst.unique hfirst' ▸ (hf.sameTree_iff h).mp htree
  · refine hends.mono (fun _ _ hd => hd.2.2) ?_
    rintro d' (⟨-, rfl⟩ | ⟨hcont, front, hfirst, t, rfl, hf⟩)
    · exact ⟨_, rfl, .refl _⟩
    · exact ⟨t, rfl, (hf.sameTree_iff h).mpr (hsame hcont front hfirst)⟩

/-- The children of an element change places, one of them named twice; and the last one becomes the only child when
the document is named behind it, and is refused. -/
theorem exists_replaceChildren_allOrNothing : Document.new.store.WellFormed ∧
    (∃ d', replaceChildren (.cell 1 0) [.cell 3 0, .cell 3 0, .cell 2 0] .new = .ok () d' ∧
      Document.new.Refurnishes (.cell 1 0) [.cell 3 0, .cell 3 0, .cell 2 0] d' ∧
      d'.store.children (.cell 1 0) = [.cell 3 0, .cell 2 0]) ∧
    ∃ e d', replaceChildren (.cell 1 0) [.cell 3 0, .root] .new = .error e d' ∧
      (∃ front, Document.new.FirstRefused (.cell 1 0) [.cell 3 0, .root] front ∧
        Document.new.Refurnishes (.cell 1 0) front d' ∧ front.dedup = [.cell 3 0]) ∧
      ¬ Document.new.AllOrNothing (.cell 1 0) [.cell 3 0, .root] := by
  have h : Document.new.store.WellFormed := over_new.store
  have hold : Document.new.store.children (.cell 1 0) = [.cell 2 0, .cell 3 0] := by decide +kernel
  obtain ⟨d', hok, hc⟩ : ∃ d', replaceChildren (.cell 1 0) [.cell 3 0, .cell 3 0, .cell 2 0] .new = .ok () d' ∧
      d'.store.children (.cell 1 0) = [.cell 3 0, .cell 2 0] := ⟨_, rfl, by decide +kernel⟩
  obtain ⟨u, herror, hu⟩ : ∃ u, replaceChildren (.cell 1 0) [.cell 3 0, .root] .new =
      .error (.hierarchyRequest .documentInserted) u ∧ u.store.children (.cell 1 0) = [.cell 3 0] :=
    ⟨_, rfl, by decide +kernel⟩
  obtain ⟨hrefused, hiff⟩ := replaceChildren_allOrNothing h (.cell 1 0) [.cell 3 0, .root]
  obtain ⟨-, rfl⟩ | ⟨hcont, front, hfirst, t, rfl, hf⟩ := hrefused.error herror
  · rw [hold] at hu
    cases hu
  have hfront : front.dedup = [.cell 3 0] := hf.children.symm.trans hu
  refine ⟨h, ⟨d', hok, ((replaceChildren_allOrNothing h _ _).1.ok hok).2.2, hc⟩, _, _, herror,
    ⟨front, hfirst, ⟨t, rfl, hf⟩, hfront⟩, fun hall => ?_⟩
  have hsame := hiff.mp hall hcont front hfirst
  rw [hfront, hold] at hsame
  cases hsame

/-- **Children that are lost**: the document is refused as a child of the `html` element. -/
theorem exists_children_lost :
    Document.new.store.WellFormed ∧ ¬ Document.new.AllOrNothing (.cell 1 0) [.root] ∧
      Document.new.store.children (.cell 1 0) = [.cell 2 0, .cell 3 0] ∧
      ∃ e d', replaceChildren (.cell 1 0) [.root] Document.new = .error e d' ∧
        e = .hierarchyRequest .documentInserted ∧ d'.store.children (.cell 1 0) = [] := by
  have hold : Document.new.store.children (.cell 1 0) = [.cell 2 0, .cell 3 0] := by decide +kernel
  obtain ⟨d', hrun, hnew⟩ : ∃ d', replaceChildren (.cell 1 0) [.root] Document.new =
      .error (.hierarchyRequest .documentInserted) d' ∧ d'.store.children (.cell 1 0) = [] :=
    ⟨_, rfl, by decide +kernel⟩
  refine ⟨over_new.store, fun hall => ?_, hold, _, d', hrun, rfl, hnew⟩
  obtain ⟨t, rfl, htree⟩ := hall.error hrun
  have hsame := htree.children (.cell 1 0)
  rw [hold, hnew] at hsame
  cases hsame

end Document

end DomHost
