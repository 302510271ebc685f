import DomHost.Proofs.Cautious
import DomHost.Proofs.Scene.Blueprint
import DomHost.Proofs.Scene.Sound
import DomHost.Proofs.Store.Rows

/-!
# Templates, built

Descriptors are read one by one, and an element gets its children when the last one is complete. For trees of
accepted descriptors this comes to planting each tree as a whole, one after the other.

* `Scene.createDescribed_eq`: the node of an accepted descriptor;
* `Scene.finish`, `Scene.resume`: what follows when a child, and when a tree is complete;
* **`Scene.assemble_tree`**, **`assemble_row`**: a tree, and trees under one element;
* **`Scene.assemble_listing`**, **`assemble_unfinished`**: trees at the top, and lists that end too early.
-/

namespace DomHost

theorem Forest.length_roots_map {α β : Type} (g : α → β) (f : Forest α) :
    (f.map g).roots.length = f.roots.length := by
  rw [roots_map, List.length_map]

namespace Store

variable {s : Store}

/-- A new node with other data. -/
theorem WellFormed.setData_create (h : s.WellFormed) (x y : NodeData) :
    (s.create x).2.setData s.cells.draw.1 y = (s.create y).2 := by
  have hnew : ∀ n ∈ s.forest.toList, ¬ is s.cells.draw.1 n = true := fun n hn he =>
    h.plant_notLive x .nil (is_iff.mp he ▸ List.mem_map_of_mem hn)
  have hself : is s.cells.draw.1 ⟨s.cells.draw.1, x⟩ = true := is_iff.mpr rfl
  change (⟨_, Forest.relabel (is s.cells.draw.1) _ (.node ⟨s.cells.draw.1, x⟩ .nil s.forest)⟩ : Store) = _
  rw [Forest.relabel, Forest.relabel_eq_self fun n hn he => absurd he (hnew n hn), if_pos hself]
  rfl

end Store

namespace Scene

variable {κ α : Type} {s : Scene κ} {st : Store}

/-! ## Nodes -/

/-- A scene with other nodes. -/
def withStore (s : Scene κ) (st : Store) : Scene κ := { s with document := { s.document with store := st } }

@[simp] theorem store_withStore (s : Scene κ) (st : Store) : (s.withStore st).store = st := rfl

@[simp] theorem withStore_withStore (s : Scene κ) (st st' : Store) :
    (s.withStore st).withStore st' = s.withStore st' := rfl

theorem onStore_of_ok {x : StoreM α} {a : α} (h : x s.store = .ok a st) :
    (onDocument (Document.onStore x) : SceneM κ α) s = .ok a (s.withStore st) :=
  onDocument_of_ok (Document.onStore_of_ok h)

theorem onStore_of_error {x : StoreM α} {e : DomError} {u : Store} (h : x s.store = .error e u) :
    (onDocument (Document.onStore x) : SceneM κ α) s = .error (.document e) (s.withStore u) :=
  onDocument_of_error (Document.onStore_of_error h)

theorem forM_onStore_of_ok {β : Type} {f : β → StoreM Unit} {l : List β} (h : l.forM f s.store = .ok () st) :
    (l.forM fun b => (onDocument (Document.onStore (f b)) : SceneM κ Unit)) s = .ok () (s.withStore st) := by
  induction l generalizing s with
  | nil =>
    cases h
    rfl
  | cons b l ih =>
    change (f b >>= fun _ => l.forM f) s.store = _ at h
    cases hb : f b s.store with
    | error e st' =>
      rw [bind_of_error hb] at h
      cases h
    | ok u st' =>
      rw [bind_of_ok hb] at h
      change (onDocument (Document.onStore (f b)) >>= fun _ => l.forM _) s = _
      rw [bind_of_ok (onStore_of_ok hb)]
      exact ih (s := s.withStore st') h

variable {d : Descriptor} {e e' : Element}

theorem newElement_eq {tag : String} {ns : Option String} (h : Descriptor.bare tag ns = .ok e) :
    newElement tag ns s = .ok s.store.cells.draw.1 (s.withStore (s.store.create (.element e)).2) := by
  unfold newElement
  cases ns with
  | some ns =>
    rw [Descriptor.bare] at h
    cases hname : QualifiedName.extract (some ns) tag with
    | error err => rw [hname] at h; cases h
    | ok name =>
      rw [hname] at h
      cases h
      refine onStore_of_ok ?_
      unfold Store.createElementNs
      rw [hname]
      rfl
  | none =>
    rw [Descriptor.bare] at h
    cases hname : validateName tag with
    | error err => rw [hname] at h; cases h
    | ok u =>
      rw [hname] at h
      cases h
      exact onStore_of_ok (x := Store.createElement tag) rfl

/-- An attribute with an accepted name is set on a live element. -/
theorem writeAttribute_of_get? {r : NodeRef} (hr : s.store.get? r = some (.element e)) {a : TemplateAttribute}
    (h : Descriptor.attach e a = .ok e') :
    writeAttribute r a.name a.value a.ns s = .ok () (s.withStore (s.store.setData r (.element e'))) := by
  obtain ⟨name, value, ns⟩ := a
  cases ns with
  | some ns =>
    rw [Descriptor.attach] at h
    dsimp only at h
    cases hname : QualifiedName.extract (some ns) name with
    | error err => rw [hname] at h; cases h
    | ok q =>
      rw [hname] at h
      cases h
      refine onStore_of_ok ?_
      unfold Store.setAttributeNs
      rw [hname]
      exact Store.updateElement_of_get? hr fun e => e.setAttr ⟨q.localName, q.qualifier, q.ns, value⟩
  | none =>
    rw [Descriptor.attach] at h
    dsimp only at h
    cases hname : validateName name with
    | error err => rw [hname] at h; cases h
    | ok u =>
      rw [hname] at h
      cases h
      refine onStore_of_ok ?_
      unfold Store.setAttribute
      rw [hname]
      exact Store.updateElement_of_get? hr fun e => e.setAttr (.plain (Store.attributeName e name) value)

theorem writeAttribute_eq (hs : s.store.WellFormed) {a : TemplateAttribute}
    (h : Descriptor.attach e a = .ok e') :
    writeAttribute s.store.cells.draw.1 a.name a.value a.ns (s.withStore (s.store.create (.element e)).2) =
      .ok () (s.withStore (s.store.create (.element e')).2) := by
  have hnew : (s.withStore (s.store.create (.element e)).2).store.get? s.store.cells.draw.1 = some (.element e) :=
    s.store.get?_create (.element e)
  refine (writeAttribute_of_get? hnew h).trans ?_
  rw [withStore_withStore, store_withStore, hs.setData_create]

theorem forM_writeAttribute (hs : s.store.WellFormed) {attributes : List TemplateAttribute}
    (h : attributes.foldlM Descriptor.attach e = .ok e') :
    (attributes.forM fun a => (writeAttribute s.store.cells.draw.1 a.name a.value a.ns : SceneM κ Unit))
        (s.withStore (s.store.create (.element e)).2) =
      .ok () (s.withStore (s.store.create (.element e')).2) := by
  induction attributes generalizing e with
  | nil =>
    cases h
    rfl
  | cons a attributes ih =>
    rw [List.foldlM_cons] at h
    cases ha : Descriptor.attach e a with
    | error err => rw [ha] at h; cases h
    | ok e₁ =>
      rw [ha] at h
      change (writeAttribute _ a.name a.value a.ns >>= fun _ => attributes.forM _) _ = _
      rw [bind_of_ok (writeAttribute_eq hs ha)]
      exact ih h

/-- **An accepted descriptor is built into its node.** -/
theorem createDescribed_eq (hs : s.store.WellFormed) (hd : d.Accepted) :
    createDescribed d s = .ok s.store.cells.draw.1 (s.withStore (s.store.create d.made).2) := by
  obtain ⟨x, hx⟩ := hd
  rw [Descriptor.made_eq hx]
  cases d with
  | element tag ns attributes count slot =>
    obtain ⟨e, e', hbare, hattributes, rfl⟩ := Descriptor.exists_element hx
    rw [createDescribed, bind_of_ok (newElement_eq hbare), bind_of_ok (forM_writeAttribute hs hattributes)]
    rfl
  | text t => cases hx; exact onStore_of_ok (x := Store.createText t) rfl
  | dynamicText => cases hx; exact onStore_of_ok (x := Store.createText "") rfl
  | placeholder => cases hx; exact onStore_of_ok (x := Store.createComment placeholderText) rfl

/-! ## Trees -/

/-- The way to the next child of the innermost element that waits, without the last index. -/
def wayTo (waiting : List OpenElement) : List Nat := (waiting.map (·.children.length)).reverse

/-- What an element does that has got a child: it waits for the next one, or takes its children and is
complete. -/
def finish (o : OpenElement) (rest : List OpenElement) : SceneM κ (List OpenElement × Option NodeRef) :=
  if o.children.length < o.expected then pure (o :: rest, none)
  else do
    o.children.forM fun c => Store.appendChild o.node c
    complete o.node rest

/-- Reads on behind a complete tree. -/
def resume (total : Nat) (rest : List Descriptor) (a : Assembly) (w : List OpenElement × Option NodeRef) :
    SceneM κ Assembly :=
  assemble total rest { a with waiting := w.1, roots := a.roots ++ w.2.toList }

/-- Takes note of slots. -/
def notes (a : Assembly) (ways : List (List Nat)) : Assembly := { a with slots := a.slots ++ ways }

variable {total : Nat} {rest : List Descriptor} {a : Assembly} {o : OpenElement} {waiting : List OpenElement}
  {c f next : Forest Descriptor}

theorem wayTo_cons (o : OpenElement) (waiting : List OpenElement) :
    wayTo (o :: waiting) = wayTo waiting ++ [o.children.length] := by
  rw [wayTo, List.map_cons, List.reverse_cons]
  rfl

theorem mark_eq (a : Assembly) (d : Descriptor) :
    a.mark d = notes a (if d.isSlot then [wayTo a.waiting] else []) := by
  unfold Assembly.mark
  split
  · rfl
  · rw [notes, List.append_nil]

theorem complete_cons (r : NodeRef) (o : OpenElement) (rest : List OpenElement) :
    (complete r (o :: rest) : SceneM κ _) = finish { o with children := o.children ++ [r] } rest := rfl

theorem assemble_cons (hs : s.store.WellFormed) (hd : d.Accepted) :
    assemble total (d :: rest) a s =
      (if 0 < d.childCount then
        assemble total rest { a.mark d with waiting := ⟨s.store.cells.draw.1, d.childCount, []⟩ :: a.waiting }
      else complete s.store.cells.draw.1 a.waiting >>= resume total rest (a.mark d))
        (s.withStore (s.store.create d.made).2) := by
  have hwaiting : (a.mark d).waiting = a.waiting := by rw [mark_eq]; rfl
  rw [assemble]
  change (createDescribed d >>= _) s = _
  rw [bind_of_ok (createDescribed_eq hs hd), hwaiting]
  split <;> rfl

/-- Trees that are read under an element become its next children. -/
def RowBuilt (κ : Type) (total : Nat) (f : Forest Descriptor) : Prop :=
  ∀ (rest : List Descriptor) (o : OpenElement) (waiting : List OpenElement) (a : Assembly) (s : Scene κ),
    s.store.WellFormed → a.waiting = o :: waiting → o.children.length + f.roots.length ≤ o.expected →
    assemble total (f.toList ++ rest) a s =
      (finish { o with children := o.children ++ (s.store.plantRow (f.map (·.made))).1.roots.map (·.ref) } waiting
        >>= resume total rest (notes a (slotWays (wayTo waiting) o.children.length f)))
        (s.withStore (s.store.plantRow (f.map (·.made))).2)

theorem map_made_ne_nil (f : Forest Descriptor) : f.map (·.made) ≠ .nil ↔ f ≠ .nil := by
  cases f <;> simp [Forest.map]

theorem bearsOnly_made (hf : Complete f) (hok : ∀ d ∈ f.toList, d.Accepted) :
    (f.map (·.made)).BearsOnly fun x => x.isContainer = true := by
  induction f with
  | nil => trivial
  | node d c next ihc ihn =>
    obtain ⟨hd, hc, hnext⟩ := hf
    simp only [Forest.toList_node, List.forall_mem_cons, List.forall_mem_append] at hok
    refine ⟨fun hne => Descriptor.isContainer_made hok.1 fun hzero => ?_, ihc hc hok.2.1, ihn hnext hok.2.2⟩
    rw [hzero, List.length_eq_zero_iff, Forest.roots_eq_nil_iff] at hd
    exact (map_made_ne_nil c).mp hne hd

theorem isDocument_of_mem_made (hok : ∀ d ∈ f.toList, d.Accepted) :
    ∀ x ∈ (f.map (·.made)).toList, x.isDocument = false := by
  intro x hx
  rw [Forest.toList_map] at hx
  obtain ⟨d, hd, rfl⟩ := List.mem_map.mp hx
  exact Descriptor.isDocument_made (hok d hd)

/-- A tree of accepted descriptors may be planted. -/
theorem plantable_made (hd : c.roots.length = d.childCount) (hc : Complete c)
    (hok : ∀ x ∈ d :: c.toList, x.Accepted) : Store.Plantable d.made (c.map (·.made)) := by
  have hlist : ∀ x ∈ (Forest.node d c .nil).toList, x.Accepted := by simpa using hok
  refine ⟨bearsOnly_made (f := .node d c .nil) ⟨hd, hc, trivial⟩ hlist, ?_⟩
  simpa [Forest.map] using isDocument_of_mem_made hlist

theorem plantables_made (hf : Complete f) (hok : ∀ d ∈ f.toList, d.Accepted) :
    Store.Plantables (f.map (·.made)) := by
  induction f with
  | nil => trivial
  | node d c next _ ihn =>
    obtain ⟨hd, hc, hnext⟩ := hf
    rw [Forest.toList_node, ← List.cons_append, List.forall_mem_append] at hok
    exact ⟨plantable_made hd hc hok.1, ihn hnext hok.2⟩

/-- The last child of an element completes its tree. -/
theorem finish_row (hs : s.store.WellFormed) (hd : c.roots.length = d.childCount) (hc : Complete c)
    (hok : ∀ x ∈ d :: c.toList, x.Accepted) (hne : c ≠ .nil) (waiting : List OpenElement) :
    let row := (s.store.create d.made).2.plantRow (c.map (·.made))
    finish ⟨s.store.cells.draw.1, d.childCount, row.1.roots.map (·.ref)⟩ waiting (s.withStore row.2) =
      complete s.store.cells.draw.1 waiting (s.withStore (s.store.plant d.made (c.map (·.made))).2) := by
  intro row
  obtain ⟨hdok, hcok⟩ := List.forall_mem_cons.mp hok
  have hdoc := Descriptor.isDocument_made hdok
  have hdata : row.1.map (·.data) = c.map (·.made) := Store.map_data_plantRow _ _
  have hcount : (row.1.roots.map (·.ref)).length = d.childCount := by
    rw [List.length_map, ← Forest.length_roots_map (·.data), hdata, Forest.length_roots_map, hd]
  have hcontainer : d.made.isContainer = true := Descriptor.isContainer_made hdok fun hzero => by
    rw [hzero, List.length_eq_zero_iff, Forest.roots_eq_nil_iff] at hd
    exact hne hd
  have hrow : row.2.WellFormed :=
    (hs.plant (Store.plantable_leaf hdoc)).plantRow (plantables_made hc hcok)
  have hmovable : ∀ a ∈ row.1.roots, a.data.isDocument = false := by
    intro a ha
    refine isDocument_of_mem_made hcok a.data ?_
    rw [← hdata, Forest.toList_map]
    exact List.mem_map_of_mem (Forest.mem_toList_of_mem_roots ha)
  have hgather := hrow.forM_appendChild (D := .nil) (s.store.gather_plantRow d.made _).1 hcontainer hdoc hmovable
  unfold finish
  rw [if_neg (by simp [hcount])]
  exact bind_of_ok (forM_onStore_of_ok (s := s.withStore row.2) hgather)

/-- **A tree is planted as a whole, and then handed to the element that waits for it.** -/
theorem assemble_tree (hd : c.roots.length = d.childCount) (hc : Complete c) (hok : ∀ x ∈ d :: c.toList, x.Accepted)
    (hs : s.store.WellFormed) (hrow : c ≠ .nil → RowBuilt κ total c) :
    assemble total (d :: (c.toList ++ rest)) a s =
      (complete (s.store.plant d.made (c.map (·.made))).1 a.waiting >>=
        resume total rest (notes a (treeWays (wayTo a.waiting) d c)))
        (s.withStore (s.store.plant d.made (c.map (·.made))).2) := by
  obtain ⟨hdok, hcok⟩ := List.forall_mem_cons.mp hok
  rw [assemble_cons hs hdok, mark_eq]
  by_cases hnil : c = .nil
  · subst hnil
    rw [if_neg (by rw [← hd]; simp [Forest.roots])]
    simp only [treeWays, slotWays, List.append_nil]
    rfl
  · have hpos : 0 < d.childCount := by
      rw [← hd, List.length_pos_iff, Ne, Forest.roots_eq_nil_iff]
      exact hnil
    have hleaf := hs.plant (Store.plantable_leaf (Descriptor.isDocument_made hdok))
    rw [if_pos hpos, hrow hnil rest ⟨s.store.cells.draw.1, d.childCount, []⟩ a.waiting _
      (s.withStore (s.store.create d.made).2) hleaf rfl (by simp [hd])]
    refine (bind_eq_of_eq (finish_row hs hd hc hok hnil a.waiting) _).trans ?_
    simp only [notes, treeWays, List.append_assoc]
    rfl

/-- **Trees under an element are planted one after the other.** -/
theorem assemble_row (hf : Complete f) (hok : ∀ d ∈ f.toList, d.Accepted) (hne : f ≠ .nil) : RowBuilt κ total f := by
  induction f with
  | nil => exact absurd rfl hne
  | node d c next ihc ihn =>
    intro rest o waiting a s hs ha hle
    obtain ⟨hd, hc, hnext⟩ := hf
    rw [Forest.toList_node, ← List.cons_append, List.forall_mem_append] at hok
    obtain ⟨htree, hrest⟩ := hok
    have hcok := (List.forall_mem_cons.mp htree).2
    have hlist : (Forest.node d c next).toList ++ rest = d :: (c.toList ++ (next.toList ++ rest)) := by
      rw [Forest.toList_node, List.cons_append, List.append_assoc]
    rw [hlist, assemble_tree hd hc htree hs (ihc hc hcok), ha, complete_cons, wayTo_cons, Forest.map,
      Store.plantRow_node]
    rw [Forest.roots, List.length_cons] at hle
    by_cases hnil : next = .nil
    · subst hnil
      rw [slotWays_node, slotWays, List.append_nil]
      rfl
    · have hpos : 0 < next.roots.length := by
        rw [List.length_pos_iff, Ne, Forest.roots_eq_nil_iff]
        exact hnil
      have hs' := hs.plant (plantable_made hd hc htree)
      generalize s.store.plant d.made (c.map (·.made)) = planted at hs' ⊢
      have hlen : (o.children ++ [planted.1]).length = o.children.length + 1 := List.length_append
      have hlt : (o.children ++ [planted.1]).length < o.expected := by omega
      have hle' : (o.children ++ [planted.1]).length + next.roots.length ≤ o.expected := by omega
      have hwait : (finish { o with children := o.children ++ [planted.1] } waiting : SceneM κ _) =
          pure ({ o with children := o.children ++ [planted.1] } :: waiting, none) :=
        if_pos hlt
      rw [hwait]
      refine (ihn hnext hrest hnil rest { o with children := o.children ++ [planted.1] } waiting
        { notes a (treeWays (wayTo waiting ++ [o.children.length]) d c) with
          waiting := { o with children := o.children ++ [planted.1] } :: waiting
          roots := a.roots ++ [] }
        (s.withStore planted.2) hs' rfl hle').trans ?_
      simp only [slotWays_node, notes, Forest.roots, List.map_cons, List.append_assoc, List.singleton_append,
        List.length_append, List.length_singleton, List.append_nil, store_withStore, withStore_withStore]
      rfl

/-! ## Lists -/

/-- Trees that do not complete the element that waits for them. -/
theorem assemble_part (hf : Complete f) (hok : ∀ d ∈ f.toList, d.Accepted) (hs : s.store.WellFormed)
    (ha : a.waiting = o :: waiting) (hlt : o.children.length + f.roots.length < o.expected) :
    let row := s.store.plantRow (f.map (·.made))
    assemble total (f.toList ++ rest) a s =
      assemble total rest
        { notes a (slotWays (wayTo waiting) o.children.length f) with
          waiting := { o with children := o.children ++ row.1.roots.map (·.ref) } :: waiting }
        (s.withStore row.2) := by
  intro row
  by_cases hnil : f = .nil
  · subst hnil
    obtain ⟨_, roots, slots⟩ := a
    cases ha
    simp only [row, notes, slotWays, Forest.map, Store.plantRow_nil, Forest.roots, List.map_nil, List.append_nil]
    rfl
  · have hlen : (o.children ++ row.1.roots.map (·.ref)).length = o.children.length + f.roots.length := by
      rw [List.length_append, List.length_map, ← Forest.length_roots_map (·.data), Store.map_data_plantRow,
        Forest.length_roots_map]
    have hwait : (finish { o with children := o.children ++ row.1.roots.map (·.ref) } waiting : SceneM κ _) =
        pure ({ o with children := o.children ++ row.1.roots.map (·.ref) } :: waiting, none) :=
      if_pos (hlen.trans_lt hlt)
    rw [assemble_row hf hok hnil rest o waiting a s hs ha hlt.le, hwait]
    change assemble total rest { notes a _ with waiting := _, roots := a.roots ++ [] } _ = _
    rw [List.append_nil]
    rfl

/-- **A list that ends too early leaves elements that wait.** What follows it is read on from there. -/
theorem assemble_unfinished {n : Nat} {ds : List Descriptor} (h : Unfinished n ds) (hok : ∀ d ∈ ds, d.Accepted)
    (hs : s.store.WellFormed) (ha : a.waiting = o :: waiting) (hn : o.children.length + n ≤ o.expected)
    (total : Nat) :
    ∃ a' st, a'.waiting ≠ [] ∧ st.WellFormed ∧ s.store.Gains ds.length st ∧
      ∀ rest, assemble total (ds ++ rest) a s = assemble total rest a' (s.withStore st) := by
  induction h generalizing o waiting a s with
  | @stop n f hf hlt =>
    have hgains := s.store.gains_plantRow (f.map (·.made))
    rw [Forest.toList_map, List.length_map] at hgains
    exact ⟨_, _, List.cons_ne_nil _ _, hs.plantRow (plantables_made hf hok), hgains, fun rest =>
      assemble_part hf hok hs ha (by omega)⟩
  | @inside n f d ds hf hlt hd ih =>
    rw [List.forall_mem_append, List.forall_mem_cons] at hok
    obtain ⟨hfok, hdok, hdsok⟩ := hok
    let row := s.store.plantRow (f.map (·.made))
    let part : Assembly := { notes a (slotWays (wayTo waiting) o.children.length f) with
      waiting := { o with children := o.children ++ row.1.roots.map (·.ref) } :: waiting }
    have hrow : (s.withStore row.2).store.WellFormed := hs.plantRow (plantables_made hf hfok)
    have hleaf := hrow.plant (Store.plantable_leaf (Descriptor.isDocument_made hdok))
    have hgains := (s.store.gains_plantRow (f.map (·.made))).trans (Store.gains_create row.2 d.made)
    rw [Forest.toList_map, List.length_map] at hgains
    obtain ⟨a', st, hwaiting, hst, hinside, hread⟩ := ih
      (a := { part.mark d with waiting := ⟨row.2.cells.draw.1, d.childCount, []⟩ :: part.waiting })
      (s := (s.withStore row.2).withStore _) hdsok hleaf rfl (by simp)
    refine ⟨a', st, hwaiting, hst, ?_, fun rest => ?_⟩
    · rw [List.length_append, List.length_cons, ← Nat.add_assoc, Nat.add_right_comm]
      exact hgains.trans hinside
    · rw [List.append_assoc, List.cons_append, assemble_part hf hfok hs ha (by omega), assemble_cons hrow hdok,
        if_pos hd.pos]
      exact hread rest

/-- **Trees at the top are planted one after the other.** -/
theorem assemble_listing (hf : Complete f) (hok : ∀ d ∈ f.toList, d.Accepted) (hs : s.store.WellFormed)
    (ha : a.waiting = []) :
    let row := s.store.plantRow (f.map (·.made))
    assemble total (f.toList ++ rest) a s =
      assemble total rest { notes a (topWays f) with roots := a.roots ++ row.1.roots.map (·.ref) }
        (s.withStore row.2) := by
  induction f generalizing a s with
  | nil =>
    simp only [notes, topWays, Forest.map, Store.plantRow_nil, Forest.roots, List.map_nil, List.append_nil]
    rfl
  | node d c next _ ihn =>
    obtain ⟨hd, hc, hnext⟩ := hf
    rw [Forest.toList_node, ← List.cons_append, List.forall_mem_append] at hok
    obtain ⟨htree, hrest⟩ := hok
    have hcok := (List.forall_mem_cons.mp htree).2
    have hlist : (Forest.node d c next).toList ++ rest = d :: (c.toList ++ (next.toList ++ rest)) := by
      rw [Forest.toList_node, List.cons_append, List.append_assoc]
    have hs' := hs.plant (plantable_made hd hc htree)
    simp only [Forest.map, Store.plantRow_node]
    rw [hlist, assemble_tree hd hc htree hs fun hne => assemble_row hc hcok hne, ha]
    generalize s.store.plant d.made (c.map (·.made)) = planted at hs' ⊢
    refine (ihn (a := { notes a (treeWays [] d c) with waiting := [], roots := a.roots ++ [planted.1] })
      (s := s.withStore planted.2) hnext hrest hs' rfl).trans ?_
    simp only [topWays, notes, Forest.roots, List.map_cons, List.append_assoc, List.singleton_append,
      store_withStore, withStore_withStore, ha]

end Scene

end DomHost
