import DomHost.Proofs.Store.Accounts
import DomHost.Proofs.Store.Moves
import DomHost.Proofs.Store.Rows
import DomHost.Proofs.Store.Siblings
import DomHost.Proofs.Store.TextContent

/-!
# Trees that grow node by node

New nodes that come under a node one after the other, each behind the children that are there by then, make the
same store as a tree that is planted as a whole, as long as they come in pre-order.

* `Store.sprout`: new trees behind the children of a node;
* `Store.place_create_eq_sprout`, **`Store.WellFormed.sprout_node`**: one new node, and what comes after it;
* `Store.Grows`, **`Store.WellFormed.grows_sprout`**: what is there stays as it is;
* `Store.plant_eq_sprout`: a tree that is planted is a new node with what sprouts under it;
* `Store.Plants`, **`Store.WellFormed.plants_plant`**: what a tree that is planted looks like, and what it leaves
  alone.
-/

namespace DomHost

namespace Forest

variable {α : Type} {p q : α → Bool} {f k : Forest α} {b : α}

theorem editChildren_id (f : Forest α) : f.editChildren p (fun c => c) = f := by
  induction f with
  | nil => rfl
  | node a c n ihc ihn => rw [editChildren, ihc, ihn, ite_self]

/-- What comes under a new label comes there along with it. -/
theorem editChildren_editChildren_append (hf : ∀ a ∈ f.toList, ¬ q a = true) (hb : q b = true)
    (h : Forest α → Forest α) :
    (f.editChildren p (· ++ node b k nil)).editChildren q h = f.editChildren p (· ++ node b (h k) nil) := by
  induction f with
  | nil => rfl
  | node a c n ihc ihn =>
    rw [toList_node, List.forall_mem_cons, List.forall_mem_append] at hf
    obtain ⟨ha, hc, hn⟩ := hf
    by_cases hp : p a = true
    · simp only [editChildren, if_pos hp, if_neg ha, if_pos hb, ihn hn, editChildren_append, editChildren_eq_self hc]
    · simp only [editChildren, if_neg hp, if_neg ha, ihc hc, ihn hn]

end Forest

namespace Store

variable {s t u : Store} {p r x : NodeRef} {data d : NodeData} {k c n : Forest NodeData} {e : Element}

/-! ## Sprouts -/

/-- New trees behind the children of a node, in cells drawn in pre-order. -/
def sprout (s : Store) (p : NodeRef) (k : Forest NodeData) : Store :=
  ⟨(k.rename embody s.cells).2, s.forest.editChildren (is p) (· ++ (k.rename embody s.cells).1)⟩

theorem sprout_nil (s : Store) (p : NodeRef) : s.sprout p .nil = s := by
  have hnil : (fun c : Forest Node => c ++ .nil) = fun c => c := funext Forest.append_nil
  change Store.mk s.cells (s.forest.editChildren (is p) (· ++ .nil)) = s
  rw [hnil, Forest.editChildren_id]

/-- A new node that is put behind the children of another. -/
theorem place_create_eq_sprout (hnew : ¬ s.Live (s.create data).1) (p : NodeRef) :
    (s.create data).2.place p (s.create data).1 none = s.sprout p (.node data .nil .nil) := by
  have hlast : (fun f : Forest Node => f.adopt (fun _ => false) (⟨(s.create data).1, data⟩, .nil)) =
      (· ++ .node ⟨(s.create data).1, data⟩ .nil .nil) := funext fun f => f.adopt_last (fun _ => rfl) _
  refine congrArg₂ Store.mk (cells_place _ _ _ _) ((place_create hnew).trans ?_)
  rw [hlast]
  rfl

/-- **A tree sprouts from its top, then come the trees behind it.** -/
theorem sprout_node (hnew : ¬ s.Live s.cells.draw.1) (p : NodeRef) (data : NodeData) (c n : Forest NodeData) :
    ((s.sprout p (.node data .nil .nil)).sprout s.cells.draw.1 c).sprout p n = s.sprout p (.node data c n) := by
  have hnot : ∀ m ∈ s.forest.toList, ¬ is s.cells.draw.1 m = true := fun m hm he =>
    hnew (List.mem_map.mpr ⟨m, hm, is_iff.mp he⟩)
  refine congrArg₂ Store.mk rfl ?_
  have hunder := fun k : Forest Node => Forest.editChildren_editChildren_append (p := is p) (k := .nil)
    (b := ⟨s.cells.draw.1, data⟩) hnot (is_iff.mpr rfl) (· ++ k)
  simp only [sprout, Forest.rename, embody, hunder, Forest.editChildren_editChildren, Forest.append_assoc]
  rfl

/-! ## What stays -/

/-- A store in which all nodes of another keep their data and their parents. -/
structure Grows (s t : Store) : Prop where
  wellFormed : t.WellFormed
  data : ∀ x, s.Live x → t.get? x = s.get? x
  parent? : ∀ x, s.Live x → t.parent? x = s.parent? x

namespace Grows

theorem refl (h : s.WellFormed) : s.Grows s := ⟨h, fun _ _ => rfl, fun _ _ => rfl⟩

theorem live (h : s.Grows t) (hx : s.Live x) : t.Live x := by
  rw [← get?_isSome_iff, h.data x hx, get?_isSome_iff]
  exact hx

theorem trans (h : s.Grows t) (h' : t.Grows u) : s.Grows u where
  wellFormed := h'.wellFormed
  data x hx := (h'.data x (h.live hx)).trans (h.data x hx)
  parent? x hx := (h'.parent? x (h.live hx)).trans (h.parent? x hx)

theorem get?_of_some (h : s.Grows t) (hx : s.get? x = some d) : t.get? x = some d :=
  (h.data x (get?_isSome_iff.mp (by rw [hx]; rfl))).trans hx

end Grows

theorem Gains.get?_eq {m : Nat} (h : s.Gains m t) (ht : t.WellFormed) (hx : s.Live x) : t.get? x = s.get? x := by
  rw [get?, h.tree?_eq ht hx, get?]

/-- Data that new nodes below an element may have. -/
def Growable (k : Forest NodeData) : Prop :=
  k.BearsOnly (fun d => d.isContainer = true) ∧ ∀ d ∈ k.toList, d.isDocument = false

theorem growable_node_iff : Growable (.node data c n) ↔ Plantable data c ∧ Growable n := by
  simp only [Growable, Plantable, Forest.BearsOnly, Forest.toList_node, List.forall_mem_cons, List.forall_mem_append]
  tauto

theorem Plantable.growable (h : Plantable data k) : Growable k :=
  ⟨h.1.2.1, fun d hd => h.2 d (List.mem_cons_of_mem _ hd)⟩

/-- What gets children is an element. -/
theorem Plantable.exists_get? (h : Plantable data k) (hr : s.get? r = some data) (hk : k ≠ .nil) :
    ∃ e, s.get? r = some (.element e) := by
  have hc := h.1.1 hk
  have hd := h.2 data List.mem_cons_self
  cases data with
  | element e => exact ⟨e, hr⟩
  | document => cases hd
  | text _ | comment _ => cases hc

namespace WellFormed

theorem grows_create (h : s.WellFormed) (hd : d.isDocument = false) : s.Grows (s.create d).2 where
  wellFormed := (h.adds_create hd).after
  data _ hx := (gains_create s d).get?_eq (h.adds_create hd).after hx
  parent? _ hx := (h.adds_create hd).parent? hx

/-- A new node that is appended to an element. -/
theorem append_create (h : s.WellFormed) (hp : s.get? p = some (.element e)) (hd : d.isDocument = false) :
    appendChild p (s.create d).1 (s.create d).2 = .ok () (s.sprout p (.node d .nil .nil)) ∧
      s.Grows (s.sprout p (.node d .nil .nil)) ∧
      (s.sprout p (.node d .nil .nil)).get? s.cells.draw.1 = some d := by
  have hnew : ¬ s.Live (s.create d).1 := h.plant_notLive d .nil
  have hi := h.insertable_create hp rfl hd
  have hgrown := h.grows_create hd
  have hget : (s.create d).2.get? p = some (.element e) := hgrown.get?_of_some hp
  have hplace : (s.create d).2.place p (s.create d).1 none = s.sprout p (.node d .nil .nil) :=
    place_create_eq_sprout hnew p
  have hseat := hgrown.wellFormed.seats_place hi none
  rw [hplace] at hseat
  refine ⟨?_, ⟨hseat.reparents.after, fun x hx => ?_, fun x hx => ?_⟩, ?_⟩
  · rw [appendChild_of_insertable hi fun d' hd' => by rw [Option.some.inj (hd'.symm.trans hget)]; rfl, hplace]
  · rw [hseat.get?, hgrown.data x hx]
  · rw [hseat.reparents.parent?, if_neg fun he : x = (s.create d).1 => hnew (he ▸ hx), hgrown.parent? x hx]
  · exact (hseat.get? _).trans (s.get?_create d)

/-- **Nothing that is there changes when trees sprout.** -/
theorem grows_sprout (h : s.WellFormed) (hp : k ≠ .nil → ∃ e, s.get? p = some (.element e)) (hk : Growable k) :
    s.Grows (s.sprout p k) := by
  induction k generalizing s p with
  | nil => rw [sprout_nil]; exact .refl h
  | node d c n ihc ihn =>
    obtain ⟨hplant, hn⟩ := growable_node_iff.mp hk
    obtain ⟨e, he⟩ := hp (by simp)
    obtain ⟨-, hleaf, hnew⟩ := h.append_create he (hplant.2 d List.mem_cons_self)
    have hbelow := hleaf.trans (ihc hleaf.wellFormed (hplant.exists_get? hnew) hplant.growable)
    rw [← sprout_node (h.plant_notLive d .nil) p d c n]
    exact hbelow.trans (ihn hbelow.wellFormed (fun _ => ⟨e, hbelow.get?_of_some he⟩) hn)

end WellFormed

/-! ## Trees that are planted -/

/-- A tree that is planted is a new node with what sprouts under it. -/
theorem plant_eq_sprout (h : s.WellFormed) (data : NodeData) (k : Forest NodeData) :
    (s.create data).2.sprout (s.create data).1 k = (s.plant data k).2 := by
  have hnot : ∀ m ∈ s.forest.toList, ¬ is (s.create data).1 m = true := fun m hm he =>
    h.plant_notLive data .nil (List.mem_map.mpr ⟨m, hm, is_iff.mp he⟩)
  have hself : is (s.create data).1 (⟨(s.create data).1, data⟩ : Node) = true := is_iff.mpr rfl
  refine congrArg₂ Store.mk rfl ?_
  change (Forest.node ⟨(s.create data).1, data⟩ .nil s.forest).editChildren (is (s.create data).1) _ = _
  rw [Forest.editChildren, if_pos hself, Forest.editChildren_eq_self hnot]
  rfl

/-- A new detached tree is there, and every node that was there before is as it was. -/
structure Plants (s : Store) (data : NodeData) (k : Forest NodeData) (r : NodeRef) (t : Store) : Prop where
  wellFormed : t.WellFormed
  shape? : t.shape? r = some (data, k)
  parent? : t.parent? r = none
  fresh : ∀ x ∈ t.descendants r, ¬ s.Live x
  live : ∀ x, t.Live x ↔ s.Live x ∨ x ∈ t.descendants r
  /-- A node that was there keeps its data and all below it. -/
  tree? : ∀ x, s.Live x → t.tree? x = s.tree? x
  /-- It keeps its place. -/
  ancestors : ∀ x, s.Live x → t.ancestors x = s.ancestors x
  len : t.len = s.len + (k.size + 1)

theorem WellFormed.len_eq (h : s.WellFormed) : s.len = s.refs.length := h.cells.length.symm

theorem gains_plant (s : Store) (data : NodeData) (k : Forest NodeData) : Gains (k.size + 1) s (s.plant data k).2 where
  front := by
    refine ⟨.node (embody data s.cells).1 (k.rename embody s.cells.draw.2).1 .nil, rfl, ?_⟩
    rw [Forest.toList_node, Forest.toList_nil, List.append_nil, List.length_cons, ← Forest.length_toList,
      ← List.length_map (·.data), ← Forest.toList_map, map_data_rename]
  same hzero := absurd hzero (Nat.succ_ne_zero _)

/-- **A tree that is planted is the only new one, and it looks as it should.** -/
theorem WellFormed.plants_plant (h : s.WellFormed) (hp : Plantable data k) :
    s.Plants data k (s.plant data k).1 (s.plant data k).2 where
  wellFormed := h.plant hp
  shape? := by
    have ht := (h.plant hp).tree?_eq_some (t := (_, _)) (Forest.mem_trees_of_mem_tops List.mem_cons_self)
    rw [Store.shape?, show (s.plant data k).2.tree? (s.plant data k).1 = _ from ht, Option.map_some, map_data_rename]
  parent? := h.parent?_plant hp
  fresh x hx := ((h.mem_descendants_plant hp).mp hx).2
  live x := by
    rw [h.mem_descendants_plant hp]
    by_cases hx : s.Live x
    · exact iff_of_true (live_plant hx) (Or.inl hx)
    · exact ⟨fun hl => Or.inr ⟨hl, hx⟩, fun hl => (hl.resolve_left hx).1⟩
  tree? x hx := (gains_plant s data k).tree?_eq (h.plant hp) hx
  ancestors x hx := (gains_plant s data k).ancestors_eq (h.plant hp) hx
  len := by
    obtain ⟨g, hg, hlen⟩ := (gains_plant s data k).front
    rw [(h.plant hp).len_eq, h.len_eq, refs, hg, Forest.toList_append, List.map_append, List.length_append,
      List.length_map, hlen, Nat.add_comm]
    rfl

end Store

end DomHost
