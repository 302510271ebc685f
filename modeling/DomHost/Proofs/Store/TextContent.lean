import DomHost.Proofs.Forest.Refill
import DomHost.Proofs.Html
import DomHost.Proofs.Store.Losses

/-!
# The text of an element

A text that is assigned to an element takes the place of its children, which become detached trees. Whether
these are kept or freed, every node that was not among them is seen as before, and the text of the document
does not tell the difference.

* `Store.below`, `Store.emptied`: the nodes below a node, and the store without them;
* `Store.shape?`: what is seen of a node and all below it;
* **`Store.setTextContent_of_element`**: the store after the assignment;
* `Store.Refills`, **`Store.Refills.tree?_eq`**, `Store.Refills.ancestors_eq`: what is seen of the other nodes;
* **`Document.outerHtml_congr`**: nodes that look alike are written alike.
-/

namespace DomHost

namespace Store

variable {s u : Store} {cells : Cells} {r p x : NodeRef} {n : Node} {c f loose k : Forest Node} {e : Element}
  {text : String}

/-! ## Nodes below a node -/

/-- The nodes below a node, in pre-order. -/
def below (s : Store) (r : NodeRef) : List NodeRef := (s.descendants r).tail

theorem below_of_tree? (ht : s.tree? r = some (n, c)) : s.below r = c.toList.map (·.ref) := by
  rw [below, descendants_of_tree? ht, Forest.labels_mk, List.map_cons, List.tail_cons]

theorem Distinct.descendants_eq_cons (h : s.Distinct) (hr : s.Live r) :
    s.descendants r = r :: s.below r ∧ r ∉ s.below r := by
  obtain ⟨n, c, ht⟩ := exists_tree? hr
  have hself : n.ref = r := (mem_trees_of_tree? ht).2
  have heq : s.descendants r = r :: s.below r := by
    rw [below_of_tree? ht, descendants_of_tree? ht, Forest.labels_mk, List.map_cons, hself]
  have hnodup := h.nodup_descendants r
  rw [heq] at hnodup
  exact ⟨heq, (List.nodup_cons.mp hnodup).1⟩

theorem Distinct.mem_below_iff (h : s.Distinct) : x ∈ s.below r ↔ r ∈ s.ancestors x ∧ x ≠ r := by
  rw [← h.mem_descendants_iff]
  by_cases hr : s.Live r
  · obtain ⟨heq, hnot⟩ := h.descendants_eq_cons hr
    rw [heq, List.mem_cons]
    exact ⟨fun hx => ⟨Or.inr hx, fun he => hnot (he ▸ hx)⟩, fun hx => hx.1.resolve_left hx.2⟩
  · simp [below, descendants, Option.isNone_iff_eq_none.mp (by simpa [← tree?_isSome_iff] using hr)]

theorem Distinct.not_is_below (h : s.Distinct) (ht : s.tree? r = some (n, c)) : ∀ m ∈ c.toList, ¬ is r m = true := by
  have hnot := (h.descendants_eq_cons (live_of_tree? ht)).2
  rw [below_of_tree? ht] at hnot
  exact fun m hm he => hnot (List.mem_map.mpr ⟨m, hm, is_iff.mp he⟩)

theorem WellFormed.root_notMem_below (h : s.WellFormed) (r : NodeRef) : .root ∉ s.below r := by
  rw [h.distinct.mem_below_iff, h.ancestors_of_parent?_none h.live_root h.parent?_document]
  exact fun hx => hx.2 (List.mem_singleton.mp hx.1).symm

theorem WellFormed.parent_notMem_below (h : s.WellFormed) (hx : x ∉ s.below r) (hp : s.parent? x = some p) :
    p ∉ s.below r := by
  rw [h.distinct.mem_below_iff] at hx ⊢
  rintro ⟨ha, -⟩
  refine hx ⟨h.ancestors_of_parent? hp ▸ List.mem_cons_of_mem x ha, fun he => ?_⟩
  exact h.notMem_ancestors_of_parent? hp (he ▸ ha)

/-- Nothing below a node is a node that is not below it. -/
theorem Distinct.notBelow (h : s.Distinct) (hx : x ∉ s.below r) : s.forest.NotBelow (is r) (is x) := by
  intro t ht hr m hm hmx
  rw [is_iff] at hr hmx
  subst hr
  rw [below_of_tree? (h.tree?_eq_some ht)] at hx
  exact hx (List.mem_map.mpr ⟨m, hm, hmx⟩)

/-! ## Children that are freed -/

/-- The store without what is below a node. -/
def emptied (s : Store) (r : NodeRef) : Store :=
  ⟨(s.below r).foldl Cells.release s.cells, s.forest.refill (is r) .nil⟩

theorem WellFormed.emptied_eq_self (h : s.WellFormed) (ht : s.tree? r = some (n, .nil)) : s.emptied r = s := by
  have hforest : s.forest.refill (is r) .nil = s.forest := Forest.editChildren_fixed (h.countP_le_one r) ht rfl
  rw [emptied, below_of_tree? ht, hforest]
  rfl

theorem tree?_emptied (ht : s.tree? r = some (n, c)) : (s.emptied r).tree? r = some (n, .nil) :=
  Forest.find?_refill_self ht

section FirstChild

variable {m : Node} {next : Forest Node}

theorem Distinct.without_first (h : s.Distinct) (ht : s.tree? r = some (n, .node m c next)) :
    (s.without m.ref).forest = s.forest.refill (is r) next :=
  Forest.prune_eq_refill (h.countP_le_one r) (h.countP_le_one m.ref) ht (is_iff.mpr rfl)

theorem Distinct.tree?_without_first (h : s.Distinct) (ht : s.tree? r = some (n, .node m c next)) :
    (s.without m.ref).tree? r = some (n, next) := by
  rw [tree?, h.without_first ht]
  exact Forest.find?_refill_self ht

theorem Distinct.below_first (h : s.Distinct) (ht : s.tree? r = some (n, .node m c next)) :
    s.below r = s.descendants m.ref ++ (s.without m.ref).below r := by
  have hfirst : (m, c) ∈ s.forest.trees :=
    Forest.mem_trees_of_mem_below (mem_trees_of_tree? ht).1 (by simp [Forest.trees])
  rw [below_of_tree? ht, below_of_tree? (h.tree?_without_first ht), descendants_of_tree? (h.tree?_eq_some hfirst),
    ← List.map_append, Forest.toList_node, Forest.labels_mk, List.cons_append]

/-- To free the first child and then the others is to free them all. -/
theorem Distinct.emptied_without_first (h : s.Distinct) (ht : s.tree? r = some (n, .node m c next)) :
    (s.without m.ref).emptied r = s.emptied r := by
  refine congrArg₂ Store.mk ?_ ?_
  · rw [h.below_first ht, List.foldl_append]
    rfl
  · rw [h.without_first ht, Forest.refill_refill]

end FirstChild

/-! ## The assignment -/

/-- The tree of a text that is created next; the empty text makes none. -/
def line (s : Store) (text : String) : Forest Node :=
  if text.isEmpty then .nil else .node ⟨s.cells.draw.1, .text text⟩ .nil .nil

theorem map_data_line (s u : Store) (text : String) : (s.line text).map (·.data) = (u.line text).map (·.data) := by
  unfold line
  split <;> rfl

theorem scatter_of_tree? (ht : s.tree? r = some (n, c)) :
    s.scatter r = ⟨s.cells, c ++ s.forest.refill (is r) .nil⟩ := by
  unfold scatter
  rw [ht]
  rfl

theorem WellFormed.scatter (h : s.WellFormed) (r : NodeRef) : (s.scatter r).WellFormed :=
  (h.guards.scatter notMem_refsOf_nil).wellFormed

/-- A new node under one that has no children. -/
theorem WellFormed.place_create_refill (h : s.WellFormed) (hs : s = ⟨cells, loose ++ f.refill (is r) .nil⟩)
    (hnot : ∀ m ∈ loose.toList, ¬ is r m = true) (data : NodeData) :
    (s.create data).2.place r (s.create data).1 none =
      ⟨cells.draw.2, loose ++ f.refill (is r) (.node ⟨cells.draw.1, data⟩ .nil .nil)⟩ := by
  have hforest := place_create (r := r) (h.plant_notLive data .nil)
  have hcells : ((s.create data).2.place r (s.create data).1 none).cells = s.cells.draw.2 := cells_place _ _ _ _
  subst hs
  refine congrArg₂ Store.mk hcells (hforest.trans ?_)
  rw [Forest.editChildren_append, Forest.editChildren_eq_self hnot, Forest.refill_nil_adopt]
  rfl

/-- **The children of an element are let go, and a text comes in their place.** -/
theorem setTextContent_of_element (h : s.WellFormed) (ht : s.tree? r = some (n, c)) (hn : n.data = .element e)
    (text : String) :
    setTextContent r text s =
      .ok () ⟨if text.isEmpty then s.cells else s.cells.draw.2, c ++ s.forest.refill (is r) (s.line text)⟩ := by
  have hget : s.get? r = some (.element e) := by rw [get?, ht, Option.map_some, hn]
  unfold setTextContent
  rw [bind_of_ok (require_of_get? hget)]
  change (clearChildren r >>= fun _ => _) s = _
  have hclear : clearChildren r s = .ok () (s.scatter r) := rfl
  rw [bind_of_ok hclear]
  by_cases htext : text.isEmpty = true
  · rw [if_pos htext, if_pos htext, line, if_pos htext, ← scatter_of_tree? ht]
    rfl
  · rw [if_neg htext, if_neg htext, line, if_neg htext]
    exact congrArg (EStateM.Result.ok ())
      ((h.scatter r).place_create_refill (scatter_of_tree? ht) (h.distinct.not_is_below ht) _)

/-- The document keeps what is below it. -/
theorem setTextContent_of_document (hr : s.get? r = some .document) : setTextContent r text s = .ok () s :=
  bind_of_ok (require_of_get? hr)

/-- A text or a comment has no children and is written anew. -/
theorem WellFormed.exists_setTextContent_of_leaf (h : s.WellFormed) (ht : s.tree? r = some (n, c))
    (hn : n.data.isContainer = false) (text : String) :
    c = .nil ∧ ∃ data, setTextContent r text s = .ok () (s.setData r data) := by
  have hget : s.get? r = some n.data := by rw [get?, ht, Option.map_some]
  have hbears := (h.bears.of_mem_trees (mem_trees_of_tree? ht).1).1
  refine ⟨not_imp_comm.mp hbears (Bool.eq_false_iff.mp hn), ?_⟩
  cases hdata : n.data with
  | document | element e =>
    rw [hdata] at hn
    cases hn
  | text t =>
    rw [hdata] at hget
    exact ⟨.text text, bind_of_ok (require_of_get? hget)⟩
  | comment t =>
    rw [hdata] at hget
    exact ⟨.comment text, bind_of_ok (require_of_get? hget)⟩

theorem ref_of_mem_line {m : Node} (hm : m ∈ (s.line text).toList) : m.ref = s.cells.draw.1 := by
  unfold line at hm
  split at hm
  · exact absurd hm List.not_mem_nil
  · rw [Forest.toList_node, Forest.toList_nil, List.append_nil, List.mem_singleton] at hm
    rw [hm]

theorem WellFormed.not_is_line (h : s.WellFormed) (hx : s.Live x) :
    ∀ m ∈ (s.line text).toList, ¬ is x m = true := by
  intro m hm he
  have hnew : s.cells.draw.1 = x := (ref_of_mem_line hm).symm.trans (is_iff.mp he)
  exact h.plant_notLive (.text text) .nil (hnew.symm ▸ hx : s.Live s.cells.draw.1)

/-! ## Which nodes are left -/

theorem Distinct.perm_emptied (h : s.Distinct) (ht : s.tree? r = some (n, c)) :
    s.refs.Perm (s.below r ++ (s.emptied r).refs) := by
  have hperm := Forest.perm_refill (k := .nil) (h.countP_le_one r) ht
  rw [Forest.toList_nil, List.append_nil] at hperm
  have hrefs := hperm.map (·.ref)
  rw [List.map_append, ← below_of_tree? ht] at hrefs
  exact (List.perm_append_comm.trans hrefs).symm

/-- A store in which a text has come in the place of what was below a node. -/
theorem WellFormed.not_live_refill (h : s.WellFormed) (ht : s.tree? r = some (n, c)) (hx : x ∈ s.below r)
    (hu : u.forest = s.forest.refill (is r) ((s.emptied r).line text)) : ¬ u.Live x := by
  have hperm := h.distinct.perm_emptied ht
  have hnodup := List.nodup_append.mp (hperm.nodup_iff.mp h.nodup)
  intro hl
  obtain ⟨m, hm, hmx⟩ := List.mem_map.mp hl
  have hback : s.forest.refill (is r) ((s.emptied r).line text) =
      (s.emptied r).forest.refill (is r) ((s.emptied r).line text) := (Forest.refill_refill _).symm
  rw [hu, hback] at hm
  rcases Forest.mem_toList_refill hm with hm | hm
  · exact hnodup.2.2 x hx x (List.mem_map.mpr ⟨m, hm, hmx⟩) rfl
  · have hnew : (s.emptied r).cells.draw.1 = x := (ref_of_mem_line hm).symm.trans hmx
    have hbelow : (s.emptied r).cells.draw.1 ∈ s.below r := hnew.symm ▸ hx
    exact (h.cells.perm hperm.symm).draw_releaseAll_notMem (List.mem_append_left _ hbelow)

/-- Children that are let go stay live. -/
theorem Distinct.live_of_loose (h : s.Distinct) (ht : s.tree? r = some (n, c)) (hx : s.Live x)
    (hu : u.forest = c ++ s.forest.refill (is r) k) : u.Live x := by
  obtain ⟨m, hm, hmx⟩ := List.mem_map.mp hx
  have hperm := Forest.perm_refill (k := k) (h.countP_le_one r) ht
  have hmem := hperm.mem_iff.mpr (List.mem_append_left _ hm)
  refine List.mem_map.mpr ⟨m, ?_, hmx⟩
  rw [hu, Forest.toList_append]
  exact List.mem_append.mpr (List.mem_append.mp hmem).symm

/-! ## What is seen of other nodes -/

/-- What a node is, with all below it. -/
def shape? (s : Store) (r : NodeRef) : Option (NodeData × Forest NodeData) :=
  (s.tree? r).map fun t => (t.1.data, t.2.map (·.data))

theorem get?_eq_shape? (s : Store) (r : NodeRef) : s.get? r = (s.shape? r).map Prod.fst := by
  rw [get?, shape?, Option.map_map]
  rfl

/-- A store in which some trees took the place of what was below a node, and others stand at the top. A node that
stays in its place is among neither. -/
structure Refills (s : Store) (r : NodeRef) (loose k : Forest Node) (u : Store) : Prop where
  forest : u.forest = loose ++ s.forest.refill (is r) k
  apart : ∀ x, s.Live x → x ∉ s.below r → ∀ m ∈ loose.toList, ¬ is x m = true
  fresh : ∀ x, s.Live x → x ∉ s.below r → ∀ m ∈ k.toList, ¬ is x m = true

namespace Refills

section Node

variable (hu : s.Refills r loose k u) (h : s.Distinct) (hl : s.Live x) (hx : x ∉ s.below r)
include hu h hl hx

/-- **A node elsewhere has the tree that it had, with the new trees below the node that got them.** -/
theorem tree?_eq :
    u.tree? x = (s.tree? x).map fun t => (t.1, if is r t.1 then k else t.2.refill (is r) k) := by
  rw [tree?, hu.forest, Forest.find?_append, Forest.find?_eq_none.mpr (hu.apart x hl hx), Option.none_or,
    Forest.find?_refill (hu.fresh x hl hx) (h.notBelow hx)]
  rfl

theorem ancestors_eq : u.ancestors x = s.ancestors x := by
  rw [ancestors, hu.forest, Forest.pathTo?_append, Forest.pathTo?_eq_none.mpr (hu.apart x hl hx), Option.none_or,
    Forest.pathTo?_refill (hu.fresh x hl hx) (h.notBelow hx)]
  rfl

theorem children_eq (hne : x ≠ r) : u.children x = s.children x := by
  rw [children, children, hu.tree?_eq h hl hx]
  cases ht : s.tree? x with
  | none => rfl
  | some t =>
    have hr : ¬ is r t.1 = true := fun he => hne ((mem_trees_of_tree? ht).2.symm.trans (is_iff.mp he))
    simp only [Option.map_some, if_neg hr, Forest.roots_refill]

theorem live : u.Live x := by
  rw [← tree?_isSome_iff, hu.tree?_eq h hl hx, Option.isSome_map, tree?_isSome_iff]
  exact hl

theorem shape?_eq :
    u.shape? x = (s.tree? x).map fun t =>
      (t.1.data, ((if is r t.1 then k else t.2.refill (is r) k) : Forest Node).map (·.data)) := by
  rw [shape?, hu.tree?_eq h hl hx, Option.map_map]
  rfl

end Node

/-- **Trees that look alike below a node leave every other node as it looks.** -/
theorem shape?_congr {u' : Store} {loose' k' : Forest Node} (hu : s.Refills r loose k u)
    (hu' : s.Refills r loose' k' u') (halike : k.map (·.data) = k'.map (·.data)) (h : s.Distinct) (hl : s.Live x)
    (hx : x ∉ s.below r) : u.shape? x = u'.shape? x := by
  rw [hu.shape?_eq h hl hx, hu'.shape?_eq h hl hx]
  refine congrArg (Option.map · (s.tree? x)) (funext fun t => ?_)
  split
  · rw [halike]
  · rw [Forest.map_refill halike]

end Refills

theorem refills_emptied (s : Store) (r : NodeRef) : s.Refills r .nil .nil (s.emptied r) where
  forest := rfl
  apart _ _ _ _ hm := absurd hm List.not_mem_nil
  fresh _ _ _ _ hm := absurd hm List.not_mem_nil

/-- Children that are let go stand at the top. -/
theorem WellFormed.refills_loose (h : s.WellFormed) (ht : s.tree? r = some (n, c))
    (hu : u.forest = c ++ s.forest.refill (is r) (s.line text)) : s.Refills r c (s.line text) u where
  forest := hu
  apart x _ hx m hm he := hx (by rw [below_of_tree? ht]; exact List.mem_map.mpr ⟨m, hm, is_iff.mp he⟩)
  fresh _ hl _ := h.not_is_line hl

/-- Children that are freed are gone before the text is created. -/
theorem Distinct.refills_freed (h : s.Distinct) (hempty : (s.emptied r).WellFormed)
    (hu : u.forest = s.forest.refill (is r) ((s.emptied r).line text)) :
    s.Refills r .nil ((s.emptied r).line text) u where
  forest := hu
  apart _ _ _ _ hm := absurd hm List.not_mem_nil
  fresh _ hl hx := hempty.not_is_line ((s.refills_emptied r).live h hl hx)

end Store

/-! ## What is written -/

theorem Html.writeForest_congr {f g : Forest Node} (h : f.map (·.data) = g.map (·.data)) (raw : Bool)
    (out : String) : writeForest f raw out = writeForest g raw out := by
  induction f generalizing g raw out with
  | nil =>
    cases g with
    | nil => rfl
    | node m d next => cases h
  | node n c next ihc ihn =>
    cases g with
    | nil => cases h
    | node m d next' =>
      obtain ⟨hdata, hc, hnext⟩ := Forest.node.inj h
      have hdata : n.data = m.data := hdata
      rw [writeForest, writeForest, hdata, ihn hnext]
      congr 1
      cases m.data with
      | document => exact ihc hc _ _
      | text t => rfl
      | comment t => rfl
      | element e => simp only [ihc hc]

/-- **Nodes that look alike and are in their places are written alike.** -/
theorem Document.outerHtml_congr {d d' : Document} {x : NodeRef}
    (hx : d.store.shape? x = d'.store.shape? x) (ha : d.store.ancestors x = d'.store.ancestors x)
    (hp : ∀ p, d.store.parent? x = some p → d.store.shape? p = d'.store.shape? p) :
    d.outerHtml x = d'.outerHtml x := by
  have hraw : d.inRawText x = d'.inRawText x := by
    have hparent : d'.store.parent? x = d.store.parent? x := by rw [Store.parent?, Store.parent?, ha]
    rw [inRawText, inRawText, hparent]
    cases hq : d.store.parent? x with
    | none => rfl
    | some p => rw [Option.any_some, Option.any_some, Store.get?_eq_shape?, Store.get?_eq_shape?, hp p hq]
  cases ht : d.store.tree? x with
  | none =>
    have ht' : d'.store.tree? x = none := by
      rw [Store.shape?, ht] at hx
      exact Option.map_eq_none_iff.mp hx.symm
    rw [outerHtml, outerHtml, ht, ht']
  | some t =>
    rw [Store.shape?, ht, Option.map_some] at hx
    obtain ⟨t', ht', heq⟩ := Option.map_eq_some_iff.mp hx.symm
    obtain ⟨hdata, hbelow⟩ := Prod.mk.inj heq
    rw [outerHtml, outerHtml, ht, ht']
    change Html.writeForest (.node t.1 t.2 .nil) (d.inRawText x) "" =
      Html.writeForest (.node t'.1 t'.2 .nil) (d'.inRawText x) ""
    rw [hraw]
    refine Html.writeForest_congr ?_ _ _
    rw [Forest.map, ← hdata, ← hbelow]
    rfl

end DomHost
