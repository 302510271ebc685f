import DomHost.Proofs.Scene.Building
import DomHost.Proofs.Scene.Coherent
import DomHost.Proofs.Scene.Gathering
import DomHost.Proofs.Store.TextContent

/-!
# A text that is assigned through an id

An instruction that assigns the text of a node frees what was below it before the document is asked what the
assignment means. For an element, a text and a comment both ways lead to documents that look alike: the same
nodes in the same places, but what the document lets go the instruction frees, with ids and listeners. A
document node with children keeps them when it is asked directly, and loses them through the instruction.

* `Document.Whole.freeSubtree_eq`, `Scene.releaseSubtree_eq`: what is freed, as an equation;
* **`Scene.releaseChildren_eq`**: the scene after the children of a node were freed;
* `Scene.SharesText`: a scene and a document in which the same text was assigned;
* `Scene.TextAgrees`: both ways end alike;
* **`Scene.textAgrees_iff`**: they do unless the node is the document and has children.
-/

namespace DomHost

/-! ## A tree that is freed -/

namespace Document.Whole

variable {d : Document} {r : NodeRef}

theorem freeSubtree_eq (h : d.Whole) (hl : d.store.Live r) (hne : r ≠ .root) :
    freeSubtree r d = .ok (d.store.descendants r).length
      { d with store := d.store.without r, listeners := d.listeners.clear (d.store.descendants r) } := by
  obtain ⟨n, c, ht⟩ := Store.exists_tree? hl
  have hdata : d.store.get? r = some n.data := by rw [Store.get?, ht, Option.map_some]
  have hnot : n.data.isDocument = false := by
    rw [Bool.eq_false_iff]
    exact fun hdoc => hne (h.store.onlyDocument ⟨r, n.data⟩ (h.store.get?_eq_some_iff.mp hdata) hdoc)
  have hfree : Store.freeSubtree r d.store = .ok (d.store.descendants r) (d.store.without r) := by
    unfold Store.freeSubtree
    rw [bind_of_ok (Store.require_of_get? hdata), hnot]
    rfl
  unfold freeSubtree
  change (onStore (Store.freeSubtree r) >>= fun _ => _) d = _
  rw [bind_of_ok (onStore_of_ok hfree)]
  rfl

/-- A tree is gone with its listeners. -/
theorem without (h : d.Whole) (hl : d.store.Live r) (hne : r ≠ .root) :
    Whole { d with store := d.store.without r, listeners := d.listeners.clear (d.store.descendants r) } :=
  ((h.ends_freeSubtree r).ok (h.freeSubtree_eq hl hne)).1

theorem clear (h : d.Whole) (rs : List NodeRef) : Whole { d with listeners := d.listeners.clear rs } :=
  ⟨h.store, h.listeners.clear rs, fun x hx => h.live x (h.listeners.mem_nodes_clear hx).1⟩

end Document.Whole

/-- The document keeps what is below it. -/
theorem Document.setProperty_text_of_document {d : Document} {r : NodeRef} (hr : d.store.get? r = some .document)
    (text : String) : setProperty r .textContent text d = .ok () d :=
  onStore_of_ok (Store.setTextContent_of_document hr)

namespace Scene

variable {κ : Type} {s t : Scene κ} {d : Document} {r x : NodeRef} {n : Node} {c : Forest Node} {id : NodeId}
  {text : String}

theorem document_foldl_strip (s : Scene κ) (rs : List NodeRef) :
    (rs.foldl strip s).document = { s.document with listeners := s.document.listeners.clear rs } := by
  induction rs generalizing s with
  | nil => rfl
  | cons r rs ih => exact ih (s.strip r)

theorem foldl_strip_withStore (s : Scene κ) (st : Store) (rs : List NodeRef) :
    rs.foldl strip (s.withStore st) = (rs.foldl strip s).withStore st := by
  induction rs generalizing s with
  | nil => rfl
  | cons r rs ih => exact ih (s.strip r)

/-- **A tree is freed after the ids and listeners of its nodes.** -/
theorem releaseSubtree_eq (h : s.document.Whole) (hl : s.store.Live r) (hne : r ≠ .root) :
    releaseSubtree r s =
      .ok () (((s.store.descendants r).foldl strip s).withStore (s.store.without r)) := by
  have hdocument := s.document_foldl_strip (s.store.descendants r)
  have hfree := (h.clear (s.store.descendants r)).freeSubtree_eq hl hne
  have hlisteners : (s.document.listeners.clear (s.store.descendants r)).clear (s.document.store.descendants r) =
      s.document.listeners.clear (s.store.descendants r) := h.listeners.clear_clear _
  unfold releaseSubtree
  change discard (onDocument (Document.freeSubtree r)) ((s.store.descendants r).foldl strip s) = _
  refine discard_of_ok (a := (s.store.descendants r).length) ?_
  unfold onDocument
  rw [hdocument, hfree]
  simp only [withStore, hdocument, hlisteners]
  rfl

theorem whole_releaseSubtree (h : s.document.Whole) (hl : s.store.Live r) (hne : r ≠ .root) :
    (((s.store.descendants r).foldl strip s).withStore (s.store.without r)).document.Whole := by
  have hdocument := s.document_foldl_strip (s.store.descendants r)
  simp only [withStore, hdocument]
  exact h.without hl hne

/-- The scene without what is below a node. -/
def emptied (s : Scene κ) (r : NodeRef) : Scene κ :=
  ((s.store.below r).foldl strip s).withStore (s.store.emptied r)

theorem emptied_eq_self (h : s.store.WellFormed) (ht : s.store.tree? r = some (n, .nil)) : s.emptied r = s := by
  rw [emptied, h.emptied_eq_self ht, Store.below_of_tree? ht]
  rfl

/-- **The children of a node are freed one after the other.** -/
theorem releaseChildren_eq (h : s.document.Whole) (ht : s.store.tree? r = some (n, c)) :
    releaseChildren r s = .ok () (s.emptied r) ∧ (s.emptied r).document.Whole := by
  unfold releaseChildren
  rw [get_bind_apply, Store.children_of_tree? ht]
  induction c generalizing s with
  | nil =>
    rw [emptied_eq_self h.store ht]
    exact ⟨rfl, h⟩
  | node m k next _ ih =>
    have hw : s.store.WellFormed := h.store
    have hd := hw.distinct
    have hparent : s.store.parent? m.ref = some r :=
      hw.parent?_eq_some_iff.mpr (by rw [Store.children_of_tree? ht]; simp [Forest.roots])
    have hl := (hw.parent?_isSome hparent).1
    have hne := hw.ne_root_of_parent? hparent
    have hfree := releaseSubtree_eq h hl hne
    obtain ⟨hrest, hwhole⟩ := ih (whole_releaseSubtree h hl hne) (hd.tree?_without_first ht)
    have hsame : (((s.store.descendants m.ref).foldl strip s).withStore (s.store.without m.ref)).emptied r =
        s.emptied r := by
      rw [emptied, emptied, store_withStore, hd.emptied_without_first ht, hd.below_first ht, List.foldl_append,
        foldl_strip_withStore, withStore_withStore]
    rw [hsame] at hrest hwhole
    refine ⟨?_, hwhole⟩
    change (releaseSubtree m.ref >>= fun _ => (next.roots.map (·.ref)).forM releaseSubtree) s = _
    rw [bind_of_ok hfree]
    exact hrest

/-! ## Two ways to one text -/

/-- A scene `t` in which a text was assigned to a node of `s` through an id, and a document `d` in which it was
assigned directly. All nodes but those that were below the node are in the same places and look alike, and so
are written alike. What was below the node is live in `d`, and gone from `t` with its ids and listeners. -/
structure SharesText (s : Scene κ) (r : NodeRef) (t : Scene κ) (d : Document) : Prop where
  shape : ∀ x, s.store.Live x → x ∉ s.store.below r → t.store.shape? x = d.store.shape? x
  ancestors : ∀ x, s.store.Live x → x ∉ s.store.below r → t.store.ancestors x = d.store.ancestors x
  children : ∀ x, s.store.Live x → x ∉ s.store.below r → x ≠ r → t.store.children x = d.store.children x
  rootHtml : t.document.outerHtml .root = d.outerHtml .root
  ownHtml : t.document.outerHtml r = d.outerHtml r
  kept : ∀ x, s.store.Live x → d.store.Live x
  freed : ∀ x ∈ s.store.below r, ¬ t.store.Live x
  unbound : s.bindings.Unbinds (· ∈ s.store.below r) t.bindings
  silenced : ∀ x, t.document.listeners.ofNode x = if x ∈ s.store.below r then [] else d.listeners.ofNode x
  assigned : d = { s.document with store := d.store }
  stripped : t = ((s.store.below r).foldl strip s).withStore t.store

/-- A text is assigned to the node of an id by the instruction and by a call on the document, and both end alike:
with the same fault and nothing changed, or with scene and document in agreement. -/
def TextAgrees (s : Scene κ) (id : NodeId) (r : NodeRef) (text : String) : Prop :=
  (∃ e, execute (.setProperty id .textContent text) s = .error (.document e) s ∧
    Document.setProperty r .textContent text s.document = .error e s.document) ∨
  ∃ t d, execute (.setProperty id .textContent text) s = .ok () t ∧
    Document.setProperty r .textContent text s.document = .ok () d ∧ s.SharesText r t d

/-- Nothing was below the node. -/
theorem sharesText_of_below_eq_nil (hbelow : s.store.below r = []) {st : Store}
    (hlive : ∀ x, s.store.Live x → st.Live x) : s.SharesText r (s.withStore st) (s.withStore st).document where
  shape _ _ _ := rfl
  ancestors _ _ _ := rfl
  children _ _ _ _ := rfl
  rootHtml := rfl
  ownHtml := rfl
  kept := hlive
  freed x hx := by simp [hbelow] at hx
  unbound := .refl _ fun _ _ _ hx => by simp [hbelow] at hx
  silenced x := by rw [hbelow, if_neg List.not_mem_nil]
  assigned := rfl
  stripped := by
    rw [hbelow]
    rfl

/-- **What was below an element is let go in the document, and freed in the scene.** -/
theorem sharesText_of_tree? (h : s.document.Whole) (hb : s.bindings.OneToOne)
    (ht : s.store.tree? r = some (n, c)) (text : String) {st st' : Store}
    (hst : st.forest = s.store.forest.refill (Store.is r) ((s.store.emptied r).line text))
    (hst' : st'.forest = c ++ s.store.forest.refill (Store.is r) (s.store.line text)) :
    s.SharesText r ((s.emptied r).withStore st) (s.withStore st').document := by
  have hw : s.store.WellFormed := h.store
  have hd := hw.distinct
  have hfreed := hd.refills_freed (releaseChildren_eq h ht).2.store hst
  have hkept := hw.refills_loose ht hst'
  have hup : ∀ x, s.store.Live x → x ∉ s.store.below r → st.ancestors x = s.store.ancestors x := fun x hl hx =>
    hfreed.ancestors_eq hd hl hx
  have hancestors : ∀ x, s.store.Live x → x ∉ s.store.below r → st.ancestors x = st'.ancestors x :=
    fun x hl hx => (hup x hl hx).trans (hkept.ancestors_eq hd hl hx).symm
  have hshape : ∀ x, s.store.Live x → x ∉ s.store.below r → st.shape? x = st'.shape? x := fun x hl hx =>
    hfreed.shape?_congr hkept (Store.map_data_line _ _ text) hd hl hx
  have hhtml : ∀ x, s.store.Live x → x ∉ s.store.below r →
      ((s.emptied r).withStore st).document.outerHtml x = (s.withStore st').document.outerHtml x := by
    intro x hl hx
    refine Document.outerHtml_congr (hshape x hl hx) (hancestors x hl hx) fun p hp => ?_
    have hp' : s.store.parent? x = some p := by
      rw [Store.parent?, ← hup x hl hx]
      exact hp
    exact hshape p (hw.parent?_isSome hp').2 (hw.parent_notMem_below hx hp')
  have hown := (hd.descendants_eq_cons (Store.live_of_tree? ht)).2
  exact {
    shape := hshape
    ancestors := hancestors
    children := fun x hl hx hne => (hfreed.children_eq hd hl hx hne).trans (hkept.children_eq hd hl hx hne).symm
    rootHtml := hhtml .root hw.live_root (hw.root_notMem_below r)
    ownHtml := hhtml r (Store.live_of_tree? ht) hown
    kept := fun x hl => hd.live_of_loose ht hl hst'
    freed := fun x hx => hw.not_live_refill ht hx hst
    unbound := unbinds_foldl_strip hb _
    silenced := fun x => by
      have hdocument := s.document_foldl_strip (s.store.below r)
      change (((s.store.below r).foldl strip s).document.listeners).ofNode x = _
      rw [hdocument]
      exact h.listeners.ofNode_clear _ x
    assigned := rfl
    stripped := rfl }

/-! ## All kinds of nodes -/

section Kinds

variable (h : s.document.Whole) (hid : s.bindings.get? id = some r)
include h hid

/-- The children are freed before the document is asked. -/
theorem execute_text (ht : s.store.tree? r = some (n, c)) (text : String) :
    execute (.setProperty id .textContent text) s =
      onDocument (Document.onStore (Store.setTextContent r text)) (s.emptied r) := by
  change (node id >>= fun r => assign r .textContent text) s = _
  rw [bind_of_ok (node_of_get? hid)]
  exact bind_of_ok (releaseChildren_eq h ht).1

/-- Whatever is done to a node without children is the same both ways. -/
theorem textAgrees_of_childless (ht : s.store.tree? r = some (n, .nil)) {st : Store}
    (hset : Store.setTextContent r text s.store = .ok () st) (hlive : ∀ x, s.store.Live x → st.Live x) :
    s.TextAgrees id r text := by
  have hexecute := execute_text h hid ht text
  rw [emptied_eq_self h.store ht, onStore_of_ok hset] at hexecute
  have hbelow : s.store.below r = [] := Store.below_of_tree? ht
  exact Or.inr ⟨_, _, hexecute, Document.onStore_of_ok hset, sharesText_of_below_eq_nil hbelow hlive⟩

theorem textAgrees_of_leaf (ht : s.store.tree? r = some (n, c)) (hn : n.data.isContainer = false) :
    s.TextAgrees id r text := by
  obtain ⟨rfl, data, hset⟩ := h.store.exists_setTextContent_of_leaf ht hn text
  refine textAgrees_of_childless h hid ht hset fun x hx => ?_
  rw [Store.Live, Store.refs_setData]
  exact hx

omit h in
theorem textAgrees_of_not_live (hl : ¬ s.store.Live r) : s.TextAgrees id r text := by
  have hnone : s.store.children r = [] := Store.children_eq_nil hl
  have hset : Store.setTextContent r text s.store = .error (.notFound r) s.store :=
    bind_of_error (Store.require_of_not_live hl) _
  have hdirect : Document.setProperty r .textContent text s.document = .error (.notFound r) s.document :=
    Document.onStore_of_error hset
  refine Or.inl ⟨.notFound r, ?_, hdirect⟩
  change (node id >>= fun r => assign r .textContent text) s = _
  rw [bind_of_ok (node_of_get? hid)]
  change (releaseChildren r >>= fun _ => onDocument (Document.setProperty r .textContent text)) s = _
  have hrelease : releaseChildren r s = .ok () s := by
    unfold releaseChildren
    rw [get_bind_apply, hnone]
    rfl
  rw [bind_of_ok hrelease]
  exact onDocument_of_error hdirect

theorem textAgrees_of_element (hb : s.bindings.OneToOne) {e : Element} (ht : s.store.tree? r = some (n, c))
    (hn : n.data = .element e) : s.TextAgrees id r text := by
  have hw : s.store.WellFormed := h.store
  have hemptied : (s.store.emptied r).WellFormed := (releaseChildren_eq h ht).2.store
  have hset := Store.setTextContent_of_element hemptied (Store.tree?_emptied ht) hn text
  have hexecute := (execute_text h hid ht text).trans (onStore_of_ok hset)
  have hdirect := Document.onStore_of_ok (d := s.document) (Store.setTextContent_of_element hw ht hn text)
  refine Or.inr ⟨_, _, hexecute, hdirect, ?_⟩
  refine sharesText_of_tree? h hb ht text ?_ rfl
  exact Forest.refill_refill s.store.forest

/-- Through an id the document loses all its nodes. -/
theorem execute_text_of_document (ht : s.store.tree? r = some (n, c)) (hn : n.data = .document) (text : String) :
    execute (.setProperty id .textContent text) s = .ok () (s.emptied r) := by
  have hget : (s.emptied r).store.get? r = some .document := by
    rw [Store.get?, show (s.emptied r).store.tree? r = _ from Store.tree?_emptied ht, Option.map_some, hn]
  exact (execute_text h hid ht text).trans (onStore_of_ok (Store.setTextContent_of_document hget))

/-- **The document keeps its children when it is asked, and loses them through the instruction.** -/
theorem textAgrees_document_iff (ht : s.store.tree? r = some (n, c)) (hn : n.data = .document) :
    s.TextAgrees id r text ↔ s.store.children r = [] := by
  have hget : s.store.get? r = some .document := by rw [Store.get?, ht, Option.map_some, hn]
  constructor
  · have hexecute := execute_text_of_document h hid ht hn text
    have hdirect := Document.setProperty_text_of_document (d := s.document) hget text
    rintro (⟨e, he, -⟩ | ⟨t, d, ht', hd', hshares⟩)
    · rw [hexecute] at he
      cases he
    · rw [hexecute] at ht'
      rw [hdirect] at hd'
      cases ht'
      cases hd'
      have hl := Store.live_of_tree? ht
      have hshape := hshares.shape r hl (h.store.distinct.descendants_eq_cons hl).2
      rw [Store.shape?, Store.shape?, show (s.emptied r).store.tree? r = _ from Store.tree?_emptied ht,
        show s.document.store.tree? r = _ from ht] at hshape
      have hmap : Forest.map (·.data) c = .nil := (congrArg Prod.snd (Option.some.inj hshape)).symm
      cases c with
      | nil => exact Store.children_of_tree? ht
      | node m k next => cases hmap
  · intro hnil
    rw [Store.children_of_tree? ht, List.map_eq_nil_iff, Forest.roots_eq_nil_iff] at hnil
    subst hnil
    exact textAgrees_of_childless h hid ht (Store.setTextContent_of_document hget) fun _ hx => hx

end Kinds

/-- **A text is assigned alike both ways, unless to the document with children.** -/
theorem textAgrees_iff (h : s.document.Whole) (hb : s.bindings.OneToOne) (hid : s.bindings.get? id = some r)
    (text : String) : s.TextAgrees id r text ↔ (r = .root → s.store.children .root = []) := by
  have hw : s.store.WellFormed := h.store
  by_cases hl : s.store.Live r
  · obtain ⟨n, c, ht⟩ := Store.exists_tree? hl
    obtain ⟨hm, hself⟩ := Store.mem_trees_of_tree? ht
    have hget : s.store.get? r = some n.data := by rw [Store.get?, ht, Option.map_some]
    have hnotRoot : n.data ≠ .document → r ≠ .root := fun hn he => hn (hw.document_data (he ▸ hget))
    cases hn : n.data with
    | document =>
      have hroot := hw.onlyDocument n (Forest.mem_toList_of_mem_trees hm) (by rw [hn]; rfl)
      obtain rfl : r = .root := hself.symm.trans hroot
      rw [textAgrees_document_iff h hid ht hn]
      exact ⟨fun hnil _ => hnil, fun hnil => hnil rfl⟩
    | element e =>
      exact iff_of_true (textAgrees_of_element h hid hb ht hn) fun he => absurd he (hnotRoot (by simp [hn]))
    | text t | comment t =>
      exact iff_of_true (textAgrees_of_leaf h hid ht (by rw [hn]; rfl)) fun he => absurd he (hnotRoot (by simp [hn]))
  · exact iff_of_true (textAgrees_of_not_live hid hl) fun he => absurd (he ▸ hw.live_root) hl

end Scene

end DomHost
