import DomHost.Proofs.Arena.Edits
import DomHost.Proofs.Follows
import DomHost.Proofs.Store.Copies
import DomHost.Proofs.Store.Gathering

/-!
# Operations on links

Every operation on cells with links goes side by side with the one on the tree that they depict: both give the same
result or fail with the same fault, and afterwards the links depict the tree again. The operations on links look at a
node and its neighbours only, and patch these; so the neighbours are named first, then the lemma on the patch applies.

* `Arena.Depicts.require_bind`: a node is looked up on both sides;
* **`Arena.Depicts.detach`**, **`Arena.Depicts.insertBefore`**: one node;
* **`Arena.Depicts.insertAfter`**, **`Arena.Depicts.insertAllBefore`**, **`Arena.Depicts.replaceWith`**,
  **`Arena.Depicts.clearChildren`**: several nodes;
* **`Arena.Depicts.setTextContent`**, **`Arena.Depicts.cloneSubtree`**, **`Arena.Depicts.freeSubtree`**: new nodes,
  copies and removal.
-/

namespace DomHost

namespace Arena.Depicts

variable {α : Type} {a : Arena} {s : Store} {r p c b : NodeRef} {d : NodeData}

/-! ## Looking up a node -/

theorem require_of_get? (h : a.Depicts s) (hd : s.get? r = some d) : require r a = .ok (s.linkedNode r d) a := by
  unfold require
  rw [get_bind_apply, h.get?_of_some hd]
  rfl

/-- A node is looked up on both sides; if it is there, both go on with it. -/
theorem require_bind (h : a.Depicts s) {f : LinkedNode → ArenaM α} {g : NodeData → StoreM α}
    (hfg : ∀ d, s.get? r = some d → Abreast Depicts (f (s.linkedNode r d)) a (g d) s) :
    Abreast Depicts (require r >>= f) a (Store.require r >>= g) s := by
  cases hd : s.get? r with
  | none =>
    have hfail : require r a = .error (.notFound r) a := by
      unfold require
      rw [get_bind_apply, h.get?_of_none hd]
      rfl
    have hfail' : Store.require r s = .error (.notFound r) s := by
      unfold Store.require
      rw [get_bind_apply, hd]
      rfl
    rw [Abreast, bind_of_error hfail, bind_of_error hfail']
    exact .error _ h
  | some d =>
    rw [Abreast, bind_of_ok (h.require_of_get? hd), bind_of_ok (Store.require_of_get? hd)]
    exact hfg d hd

theorem discard_require (h : a.Depicts s) (r : NodeRef) :
    Abreast Depicts (discard (require r)) a (discard (Store.require r)) s := by
  rw [discard_eq_bind, discard_eq_bind]
  exact h.require_bind fun _ _ => .pure _ h

/-- A parent is the expected one, if that is live. -/
theorem getD_eq_iff (hs : s.WellFormed) (hp : s.Live p) : (s.parent? r).getD .nowhere = p ↔ s.parent? r = some p := by
  cases s.parent? r with
  | none => exact iff_of_false (fun he => ne_nowhere hs hp he.symm) (by simp)
  | some q => simp

/-! ## One node -/

/-- The links of a live node are patched when it has a parent. -/
theorem exists_detach (h : a.Depicts s) (hd : s.get? r = some d) :
    ∃ b, detach r a = .ok ⟨⟩ b ∧ b.Depicts (s.takeOut r) := by
  unfold detach
  rw [bind_of_ok (h.require_of_get? hd)]
  cases hp : s.parent? r with
  | none =>
    have hno : (s.linkedNode r d).parent.isValid = false := by simp [Store.linkedNode, hp, NodeRef.isValid]
    rw [if_neg (by simp [hno]), Store.takeOut_of_detached hp]
    exact ⟨a, rfl, h⟩
  | some p =>
    have hne : p ≠ .nowhere := ne_nowhere h.wellFormed (h.wellFormed.parent?_isSome hp).2
    have hparent : (s.linkedNode r d).parent = p := by rw [Store.linkedNode, hp, Option.getD_some]
    have hyes : p.isValid = true := by cases p <;> simp_all [NodeRef.isValid]
    rw [hparent, if_pos hyes]
    exact ⟨_, rfl, h.takeOut hp⟩

theorem detach_of_get? (h : a.Depicts s) (hd : s.get? r = some d) :
    Abreast Depicts (Arena.detach r) a (modify (·.takeOut r)) s := by
  obtain ⟨b, hb, hdepicts⟩ := h.exists_detach hd
  rw [Abreast, hb]
  exact .ok _ hdepicts

/-- **A node is detached on both sides.** -/
theorem detach (h : a.Depicts s) (r : NodeRef) : Abreast Depicts (Arena.detach r) a (Store.detach r) s := by
  unfold Store.detach
  rw [discard_bind]
  cases hd : s.get? r with
  | none =>
    unfold Arena.detach
    exact h.require_bind fun d hd' => absurd (hd.symm.trans hd') (by simp)
  | some d => exact .bind_right (Store.require_of_get? hd) (h.detach_of_get? hd)

/-- The same nodes are let in under a parent. -/
theorem checkInsertion (h : a.Depicts s) (p c : NodeRef) :
    Abreast Depicts (Arena.checkInsertion p c) a (Store.checkInsertion p c) s := by
  unfold Arena.checkInsertion Store.checkInsertion
  refine h.require_bind fun above _ => h.require_bind fun below _ => ?_
  refine .ite Iff.rfl (fun _ => ?_) fun _ => .throw_bind _ h
  refine .ite Iff.rfl (fun _ => .throw_bind _ h) fun _ => ?_
  refine .get_bind (.ite (by rw [h.isInclusiveAncestor]) (fun _ => .throw_bind _ h) fun _ => ?_)
  exact .ite Iff.rfl (fun _ => .throw _ h) fun _ => .pure _ h

/-- A node that is detached and linked takes its place. -/
theorem detach_link (h : a.Depicts s) (hi : s.Insertable p c) (before : Option NodeRef)
    (hb : ∀ b ∈ before, b ∈ s.children p ∧ b ≠ c) :
    Abreast Depicts (Arena.detach c >>= fun _ => modify (·.link p c (before.getD .nowhere))) a
      (modify (·.place p c before)) s := by
  obtain ⟨d, hd, -⟩ := hi.movable
  obtain ⟨b, hdetach, hdepicts⟩ := h.exists_detach hd
  rw [Abreast, bind_of_ok hdetach]
  exact .ok _ (hdepicts.place_takeOut h.wellFormed hi before hb)

/-- The sibling behind a child is another child. -/
theorem nextSibling?_mem (hs : s.WellFormed) (hc : c ∈ s.children p) (hb : s.nextSibling? c = some b) :
    b ∈ s.children p ∧ b ≠ c := by
  obtain ⟨front, back, hl⟩ := List.append_of_mem hc
  rw [hs.nextSibling?_eq hl] at hb
  have hmem := List.mem_of_head? hb
  refine ⟨hl ▸ List.mem_append_right _ (List.mem_cons_of_mem _ hmem), fun he => ?_⟩
  exact (hs.notMem_of_children hl).2 (he ▸ hmem)

/-- **A node is inserted on both sides.** -/
theorem insertBefore (h : a.Depicts s) (p c : NodeRef) (reference : Option NodeRef) :
    Abreast Depicts (Arena.insertBefore p c reference) a (Store.insertBefore p c reference) s := by
  unfold Arena.insertBefore Store.insertBefore
  refine (h.checkInsertion p c).bind_ends (Store.ends_checkInsertion_admits s p c) fun _ a' s' h' hs => ?_
  obtain ⟨rfl, hadmits⟩ := hs
  cases reference.bind (·.toOption) with
  | none => exact h'.detach_link hadmits.toInsertable none (by simp)
  | some b =>
    simp only [discard_bind]
    refine h'.require_bind fun e he => ?_
    have hparent : (s'.linkedNode b e).parent = p ↔ (s'.parent? b == some p) = true := by
      rw [beq_iff_eq]
      exact getD_eq_iff h'.wellFormed hadmits.live.1
    refine .bind_right rfl (.ite hparent (fun hb => ?_) fun _ => .throw_bind _ h')
    have hchild : b ∈ s'.children p := h'.wellFormed.parent?_eq_some_iff.mp (beq_iff_eq.mp hb)
    obtain ⟨d, hd, -⟩ := hadmits.movable
    refine .bind_left (h'.require_of_get? hd) ?_
    have hlink := h'.detach_link hadmits.toInsertable (if b = c then s'.nextSibling? c else some b) fun x hx => by
      split at hx
      · rename_i hbc
        exact nextSibling?_mem h'.wellFormed (hbc ▸ hchild) hx
      · rename_i hbc
        exact Option.some.inj hx ▸ ⟨hchild, hbc⟩
    rw [getD_ite] at hlink
    exact hlink

theorem appendChild (h : a.Depicts s) (p c : NodeRef) :
    Abreast Depicts (Arena.appendChild p c) a (Store.appendChild p c) s := h.insertBefore p c none

/-- A node is removed from the parent it is expected to have. -/
theorem removeChild (h : a.Depicts s) (p c : NodeRef) :
    Abreast Depicts (Arena.removeChild p c) a (Store.removeChild p c) s := by
  unfold Arena.removeChild Store.removeChild
  rw [discard_bind]
  refine h.require_bind fun d hd => .bind_right rfl ?_
  exact .ite (by rw [beq_iff_eq]; rfl) (fun _ => h.detach_of_get? hd) fun _ => .throw_bind _ h

/-! ## Several nodes -/

theorem insertAt (h : a.Depicts s) (p : NodeRef) (nodes candidates : List NodeRef) :
    Abreast Depicts (Arena.insertAt p nodes (candidates.find? (!nodes.contains ·))) a
      (Store.insertAt p nodes candidates) s :=
  .forM (fun c _ _ h => h.insertBefore p c _) nodes h

/-- The place for nodes behind a child is found along the links. -/
theorem firstOutside_following (h : a.Depicts s) (hp : s.parent? r = some p) (nodes : List NodeRef) :
    a.firstOutside nodes a.capacity (a.nextSibling? r) = (s.following r).find? (!nodes.contains ·) :=
  firstOutside_eq (h.chain_following hp).1 (h.chain_following hp).2.le

/-- **Nodes are inserted behind a node on both sides.** -/
theorem insertAfter (h : a.Depicts s) (r : NodeRef) (nodes : List NodeRef) :
    Abreast Depicts (Arena.insertAfter r nodes) a (Store.insertAfter r nodes) s := by
  unfold Arena.insertAfter Store.insertAfter
  refine .get_bind ?_
  rw [h.parent?]
  cases hp : s.parent? r with
  | none => exact h.discard_require r
  | some p =>
    refine .get_bind ?_
    rw [h.firstOutside_following hp]
    exact h.insertAt p nodes _

/-- **Nodes are inserted in front of a node on both sides.** -/
theorem insertAllBefore (h : a.Depicts s) (r : NodeRef) (nodes : List NodeRef) :
    Abreast Depicts (Arena.insertAllBefore r nodes) a (Store.insertAllBefore r nodes) s := by
  unfold Arena.insertAllBefore Store.insertAllBefore
  refine .get_bind ?_
  rw [h.parent?]
  cases hp : s.parent? r with
  | none => exact h.discard_require r
  | some p =>
    obtain ⟨hchain, hlen⟩ := h.chain_following hp
    have houtside : a.firstOutside nodes a.capacity (some r) = (r :: s.following r).find? (!nodes.contains ·) :=
      firstOutside_eq (.step hchain) hlen
    refine .get_bind ?_
    rw [houtside]
    exact h.insertAt p nodes _

/-- **Nodes take the place of a node on both sides.** -/
theorem replaceWith (h : a.Depicts s) (old : NodeRef) (nodes : List NodeRef) :
    Abreast Depicts (Arena.replaceWith old nodes) a (Store.replaceWith old nodes) s := by
  unfold Arena.replaceWith Store.replaceWith
  refine .get_bind ?_
  rw [h.parent?]
  cases hp : s.parent? old with
  | none => exact h.discard_require old
  | some p =>
    have hchecks : Abreast Depicts (nodes.forM (Arena.checkInsertion p)) a (nodes.forM (Store.checkInsertion p)) s :=
      .forM (fun c _ _ h => h.checkInsertion p c) nodes h
    refine hchecks.bind_ends (Store.ends_checkInsertions s p nodes) fun _ a' s' h' hs => ?_
    obtain rfl := hs
    refine .get_bind ?_
    rw [h'.firstOutside_following hp]
    refine .ite Iff.rfl (fun _ => h'.insertAt p nodes _) fun _ => ?_
    exact (h'.detach old).bind fun _ _ _ h => h.insertAt p nodes _

/-- The children are detached one by one. -/
theorem exists_clearFrom (h : a.Depicts s) (r : NodeRef) {rounds : Nat} (hl : (s.children r).length ≤ rounds) :
    ∃ b, clearFrom r rounds a = .ok ⟨⟩ b ∧ b.Depicts (s.scatter r) := by
  induction rounds generalizing a s with
  | zero =>
    rw [h.wellFormed.scatter_eq_self (List.length_eq_zero_iff.mp (Nat.le_zero.mp hl))]
    exact ⟨a, rfl, h⟩
  | succ rounds ih =>
    unfold clearFrom
    rw [get_bind_apply, h.firstChild?, Store.firstChild?]
    cases hc : s.children r with
    | nil =>
      rw [h.wellFormed.scatter_eq_self hc]
      exact ⟨a, rfl, h⟩
    | cons child rest =>
      have hp : s.parent? child = some r := h.wellFormed.parent?_eq_some_iff.mpr (hc ▸ List.mem_cons_self)
      obtain ⟨d, hd⟩ := Option.isSome_iff_exists.mp
        (Store.get?_isSome_iff.mpr (h.wellFormed.parent?_isSome hp).1)
      obtain ⟨b, hb, hdepicts⟩ := h.exists_detach hd
      have hchildren : s.children r = [] ++ child :: rest := hc
      have hrest : (s.takeOut child).children r = rest := (h.wellFormed.shift_takeOut hchildren).children'
      rw [hc, List.length_cons] at hl
      obtain ⟨b', hb', hdepicts'⟩ := ih hdepicts (hrest ▸ Nat.le_of_succ_le_succ hl)
      exact ⟨b', (bind_of_ok hb).trans hb', hdepicts'.scatter_takeOut h.wellFormed hp⟩

/-- **The children of a node are let go on both sides.** -/
theorem clearChildren (h : a.Depicts s) (r : NodeRef) :
    Abreast Depicts (Arena.clearChildren r) a (Store.clearChildren r) s := by
  obtain ⟨b, hb, hdepicts⟩ := h.exists_clearFrom r (h.length_children_le r)
  have hclear : Arena.clearChildren r a = .ok ⟨⟩ b := hb
  rw [Abreast, hclear]
  exact .ok _ hdepicts

/-! ## New nodes -/

theorem push (h : a.Depicts s) {data : NodeData} (hd : data.isDocument = false) :
    Abreast Depicts (modifyGet (·.push { data }) : ArenaM NodeRef) a (modifyGet (·.create data) : StoreM NodeRef) s := by
  obtain ⟨hfst, hdepicts⟩ := h.create hd
  change Alike Depicts (.ok (a.push { data }).1 (a.push { data }).2) (.ok (s.create data).1 (s.create data).2)
  rw [hfst]
  exact .ok _ hdepicts

theorem createElementNs (h : a.Depicts s) (ns : Option String) (name : String) :
    Abreast Depicts (Arena.createElementNs ns name) a (Store.createElementNs ns name) s :=
  Abreast.bind (.liftResult _ h) fun _ _ _ h => h.push rfl

/-- A new node is linked behind the children of another. -/
theorem link_create {data : NodeData} (hs : s.WellFormed) (h : a.Depicts (s.create data).2) (hd : s.get? r = some d)
    (hc : d.isContainer = true) (hdata : data.isDocument = false) :
    (a.link r (s.create data).1 .nowhere).Depicts ((s.create data).2.place r (s.create data).1 none) := by
  have hnew := (hs.adds_create hdata).fresh _ (List.mem_singleton_self _)
  exact h.place (hs.insertable_create hd hc hdata) hnew.2.2 none (by simp)

/-- **The text of a node is replaced on both sides.** -/
theorem setTextContent (h : a.Depicts s) (r : NodeRef) (text : String) :
    Abreast Depicts (Arena.setTextContent r text) a (Store.setTextContent r text) s := by
  unfold Arena.setTextContent Store.setTextContent
  refine h.require_bind fun d hd => ?_
  cases d with
  | text t => exact .modify (h.setData hd rfl rfl)
  | comment t => exact .modify (h.setData hd rfl rfl)
  | document => exact .pure _ h
  | element e =>
    refine (h.clearChildren r).bind_ends (Ends.modify (Q := fun _ s' => s' = s.scatter r) (E := fun _ => False) rfl)
      fun _ a' s' h' hs => ?_
    refine .ite Iff.rfl (fun _ => .pure _ h') fun _ => ?_
    have hd' : s'.get? r = some (.element e) := by rw [hs, h.wellFormed.get?_scatter, hd]
    have hpush := h'.push (rfl : (NodeData.text text).isDocument = false)
    refine hpush.bind_ends (Ends.modifyGet (Q := fun c s'' => c = (s'.create (.text text)).1 ∧
      s'' = (s'.create (.text text)).2) (E := fun _ => False) ⟨rfl, rfl⟩) ?_
    rintro _ a'' _ h'' ⟨rfl, rfl⟩
    exact .modify (link_create h'.wellFormed h'' hd' rfl rfl)

/-! ## Copies and removal -/

/-- The nodes of a table have copies with the same data. -/
def Matches (s : Store) (copies : List (NodeRef × NodeRef)) : Prop :=
  ∀ x y, copies.lookup x = some y → ∃ d, s.get? x = some d ∧ s.get? y = some d

/-- The data of nodes that are there stay. -/
theorem Matches.mono {s' : Store} {copies : List (NodeRef × NodeRef)} (h : Matches s copies)
    (hkeep : ∀ x d, s.get? x = some d → s'.get? x = some d) : Matches s' copies := fun x y hy =>
  let ⟨d, hx, hy⟩ := h x y hy
  ⟨d, hkeep x d hx, hkeep y d hy⟩

theorem Matches.cons {copies : List (NodeRef × NodeRef)} (h : Matches s copies) (hx : s.get? r = some d)
    (hy : s.get? c = some d) : Matches s ((r, c) :: copies) := by
  intro x y hl
  by_cases he : x = r
  · rw [he, List.lookup_cons_self, Option.some.injEq] at hl
    exact ⟨d, he ▸ hx, hl ▸ hy⟩
  · rw [Store.lookup_cons_of_ne he] at hl
    exact h x y hl

/-- The copy of the parent is found by the link to the parent. -/
theorem lookup_parent {copies : List (NodeRef × NodeRef)} (hs : s.WellFormed) (hm : Matches s copies) (x : NodeRef) :
    copies.lookup ((s.parent? x).getD .nowhere) = (s.parent? x).bind (List.lookup · copies) := by
  cases s.parent? x with
  | some q => rfl
  | none =>
    rw [Option.getD_none, Option.bind_none, Option.eq_none_iff_forall_ne_some]
    intro y hy
    obtain ⟨d, hd, -⟩ := hm _ _ hy
    exact ne_nowhere hs (Store.get?_isSome_iff.mp (by rw [hd]; rfl)) rfl

/-- One round of a copy gives the same table on both sides. -/
theorem exists_copyNode (h : a.Depicts s) {copies : List (NodeRef × NodeRef)} (hm : Matches s copies) {x : NodeRef}
    (hd : s.get? x = some d) (hdoc : d.isDocument = false) :
    ∃ copies' b t, copyNode r copies x a = .ok copies' b ∧ Store.copyNode r copies x s = .ok copies' t ∧
      b.Depicts t ∧ Matches t copies' ∧ ∀ y e, s.get? y = some e → t.get? y = some e := by
  have hs := h.wellFormed
  obtain ⟨hfst, hpush⟩ := h.create hdoc
  have hgrown := hs.grows_create hdoc
  have hkeep : ∀ y e, s.get? y = some e → (s.create d).2.get? y = some e := fun _ _ hy => hgrown.get?_of_some hy
  have hm' : Matches (s.create d).2 ((x, (s.create d).1) :: copies) :=
    (hm.mono hkeep).cons (hkeep x d hd) (s.get?_create d)
  have hleft : (modifyGet (·.push { data := (s.linkedNode x d).data }) : ArenaM NodeRef) a =
      .ok (s.create d).1 (a.push { data := d }).2 := by
    rw [← hfst]
    rfl
  have hright : (modifyGet (·.create d) : StoreM NodeRef) s = .ok (s.create d).1 (s.create d).2 := rfl
  unfold copyNode Store.copyNode insertNode
  rw [bind_of_ok (h.require_of_get? hd), bind_of_ok (Store.require_of_get? hd), bind_of_ok hleft, get_bind_apply,
    bind_of_ok hright]
  by_cases hx : x = r
  · rw [if_neg (not_not.mpr hx), if_neg (not_not.mpr hx)]
    exact ⟨_, _, _, rfl, rfl, hpush, hm', hkeep⟩
  have hlookup : copies.lookup (s.linkedNode x d).parent = (s.parent? x).bind (List.lookup · copies) :=
    lookup_parent hs hm x
  rw [if_pos hx, if_pos hx, hlookup]
  cases hl : (s.parent? x).bind (List.lookup · copies) with
  | none => exact ⟨_, _, _, rfl, rfl, hpush, hm', hkeep⟩
  | some above =>
    obtain ⟨q, hq, hcopy⟩ := Option.bind_eq_some_iff.mp hl
    obtain ⟨e, he, habove⟩ := hm q above hcopy
    obtain ⟨e', he', hc⟩ := hs.container_of_child (hs.parent?_eq_some_iff.mp hq)
    rw [← Option.some.inj (he.symm.trans he')] at hc
    have hseats := hgrown.wellFormed.seats_place (hs.insertable_create habove hc hdoc) none
    have hstay : ∀ y e, (s.create d).2.get? y = some e →
        ((s.create d).2.place above (s.create d).1 none).get? y = some e := fun y e hy => (hseats.get? y).trans hy
    exact ⟨_, _, _, rfl, rfl, link_create hs hpush habove hc hdoc, hm'.mono hstay, fun y e hy => hstay y e (hkeep y e hy)⟩

/-- A walk that copies gives the same table on both sides. -/
theorem exists_foldlM_copyNode (h : a.Depicts s) {copies : List (NodeRef × NodeRef)} (hm : Matches s copies)
    {l : List NodeRef} (hl : ∀ x ∈ l, ∃ d, s.get? x = some d ∧ d.isDocument = false) :
    ∃ copies' b t, l.foldlM (copyNode r) copies a = .ok copies' b ∧
      l.foldlM (Store.copyNode r) copies s = .ok copies' t ∧ b.Depicts t := by
  induction l generalizing a s copies with
  | nil => exact ⟨copies, a, s, rfl, rfl, h⟩
  | cons x l ih =>
    obtain ⟨⟨d, hd, hdoc⟩, hl⟩ := List.forall_mem_cons.mp hl
    obtain ⟨copies₁, b, t, hb, ht, hdepicts, hm₁, hkeep⟩ := h.exists_copyNode (r := r) hm hd hdoc
    have hl₁ : ∀ y ∈ l, ∃ d, t.get? y = some d ∧ d.isDocument = false := fun y hy =>
      let ⟨d, hd, hdoc⟩ := hl y hy
      ⟨d, hkeep y d hd, hdoc⟩
    obtain ⟨copies₂, b', t', hb', ht', hdepicts'⟩ := ih hdepicts hm₁ hl₁
    refine ⟨copies₂, b', t', ?_, ?_, hdepicts'⟩
    · rw [List.foldlM_cons, bind_of_ok hb, hb']
    · rw [List.foldlM_cons, bind_of_ok ht, ht']

/-- **A tree is copied on both sides.** -/
theorem cloneSubtree (h : a.Depicts s) (r : NodeRef) :
    Abreast Depicts (Arena.cloneSubtree r) a (Store.cloneSubtree r) s := by
  rw [Abreast, ← h.wellFormed.cloneByWalk_eq_cloneSubtree, ← Abreast]
  unfold Arena.cloneSubtree Store.cloneByWalk
  refine h.require_bind fun d hd => .ite Iff.rfl (fun _ => .throw_bind _ h) fun hdoc => .get_bind ?_
  obtain ⟨k, ht⟩ := Store.exists_tree?_of_get? hd
  have hnodes : ∀ x ∈ s.descendants r, ∃ d, s.get? x = some d ∧ d.isDocument = false := fun x hx => by
    rw [Store.descendants_of_tree? ht] at hx
    obtain ⟨n, hn, rfl⟩ := List.mem_map.mp hx
    have hmem := Forest.mem_toList_of_mem_labels (Store.mem_trees_of_tree? ht).1 hn
    exact ⟨n.data, h.wellFormed.get?_eq_some_iff.mpr hmem, h.wellFormed.isDocument_eq_false ht (by simpa using hdoc) hn⟩
  have hempty : Matches s [] := fun x y hy => by simp at hy
  obtain ⟨copies, b, t, hb, ht, hdepicts⟩ := h.exists_foldlM_copyNode (r := r) hempty hnodes
  rw [h.descendants, Abreast, bind_of_ok hb, bind_of_ok ht]
  cases copies.lookup r with
  | none => exact .error _ hdepicts
  | some copy => exact .ok _ hdepicts

/-- **A tree is freed on both sides**, and the same nodes are listed. -/
theorem freeSubtree (h : a.Depicts s) (r : NodeRef) :
    Abreast Depicts (Arena.freeSubtree r) a (Store.freeSubtree r) s := by
  unfold Arena.freeSubtree Store.freeSubtree
  refine h.require_bind fun d hd => .ite Iff.rfl (fun _ => .throw_bind _ h) fun hdoc => ?_
  have hr : r ≠ .root := h.wellFormed.ne_root hd (by simpa using hdoc)
  have hparent : (s.takeOut r).parent? r = none := by rw [(h.wellFormed.takeOut r).parent?, if_pos rfl]
  obtain ⟨b, hb, hdepicts⟩ := h.exists_detach hd
  have hfreed : b.descendants r = s.descendants r := by
    rw [hdepicts.descendants, Store.descendants, Store.tree?_takeOut, Store.descendants]
  beta_reduce
  rw [Abreast, bind_of_ok hb]
  change Alike Depicts (.ok (b.descendants r) ((b.descendants r).foldl release b))
    (.ok (s.descendants r) (s.without r))
  have hrest := (hdepicts.without hr hparent).without_takeOut h.wellFormed hr
  rw [hfreed] at hrest ⊢
  exact .ok _ hrest

end Arena.Depicts

end DomHost
