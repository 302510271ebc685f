import DomHost.Markup.Import
import DomHost.Proofs.Forest.Trees
import DomHost.Proofs.Store.Contents
import DomHost.Proofs.Store.Links

/-!
# What holds of every element

Nodes that move, and copies of nodes, bring no element that was not there. So what holds of every element of
a store goes on to hold as long as it holds of the elements that are created and of those that are changed.

* `NodeData.Fits`, `Store.Every`: something holds of an element, and of every element of a store;
* `Store.every_plant_iff`, `Store.every_setData`: new nodes, and nodes that change;
* `Store.toList_place_subset`, **`Store.WellFormed.every_place_iff`**: nodes that move;
* `Store.Sustains`: a store after which it still holds of every element;
* **`Store.sustains_cloneSubtree`**, `Store.sustains_setTextContent` and others: operations that bring no other
  elements;
* `Store.Bare`, **`Store.sustains_run`**: calls that build or change the tree;
* `Store.sustains_updateElement`: changing an element;
* `Store.Steady`: what no edit of an element takes away;
* **`Store.ends_plantEach_every`**: planted trees.
-/

namespace DomHost

/-- Something holds of the element, if it is one. -/
def NodeData.Fits (P : Element → Prop) : NodeData → Prop
  | element e => P e
  | _ => True

instance (P : Element → Prop) [DecidablePred P] : DecidablePred (NodeData.Fits P)
  | .element e => inferInstanceAs (Decidable (P e))
  | .document | .text _ | .comment _ => inferInstanceAs (Decidable True)

namespace Store

variable {P : Element → Prop} {s s' : Store} {r : NodeRef}

/-- Something holds of every element of a store. -/
def Every (P : Element → Prop) (s : Store) : Prop := ∀ n ∈ s.forest.toList, n.data.Fits P

theorem Every.of_subset (h : s.Every P) (hs : s'.forest.toList ⊆ s.forest.toList) : s'.Every P :=
  fun n hn => h n (hs hn)

theorem Every.fits (h : s.Every P) {data : NodeData} (hr : s.get? r = some data) : data.Fits P := by
  obtain ⟨t, ht, rfl⟩ := Option.map_eq_some_iff.mp hr
  exact h t.1 (Forest.mem_toList_of_mem_trees (mem_trees_of_tree? ht).1)

theorem element?_eq_some_iff {e : Element} : s.element? r = some e ↔ s.get? r = some (.element e) := by
  unfold element?
  cases s.get? r with
  | none => simp
  | some data => cases data <;> simp [NodeData.element?]

theorem ends_requireElement_element? (s : Store) (r : NodeRef) :
    Ends (requireElement r) s (fun e s' => s' = s ∧ s.element? r = some e)
      fun s' => s' = s ∧ s.element? r = none := by
  have hdead : ¬ s.Live r → s.element? r = none := fun hl => by
    rw [element?, Option.bind_eq_none_iff]
    exact fun data hd => absurd (get?_isSome_iff.mp (by rw [hd]; rfl)) hl
  unfold requireElement
  refine ((ends_require_live s r).mono (fun _ _ h => h) fun _ h => ⟨h.1, hdead h.2⟩).bind ?_
  rintro data s ⟨rfl, hd⟩
  rw [element?, hd]
  cases data <;> exact ⟨rfl, rfl⟩

theorem Every.element (h : s.Every P) {e : Element} (hr : s.element? r = some e) : P e :=
  h.fits (element?_eq_some_iff.mp hr)

/-- Every element answers to the reference of its node. -/
theorem Distinct.every_iff (h : s.Distinct) : s.Every P ↔ ∀ r e, s.element? r = some e → P e := by
  refine ⟨fun hs r e hr => hs.element hr, fun hall n hn => ?_⟩
  cases hd : n.data with
  | element e =>
    refine hall n.ref e (element?_eq_some_iff.mpr ?_)
    exact h.get?_eq_some_iff.mpr (hd ▸ hn)
  | _ => trivial

/-! ## New nodes, and nodes that change -/

theorem every_plant_iff {data : NodeData} {k : Forest NodeData} :
    (s.plant data k).2.Every P ↔ (data.Fits P ∧ ∀ x ∈ k.toList, x.Fits P) ∧ s.Every P := by
  have hdata := congrArg Forest.toList (map_data_rename k s.cells.draw.2)
  rw [Forest.toList_map] at hdata
  unfold Every plant
  simp only [embody, Forest.toList_node, List.forall_mem_cons, List.forall_mem_append, ← hdata,
    List.forall_mem_map, and_assoc]

theorem every_create_iff {data : NodeData} : (s.create data).2.Every P ↔ data.Fits P ∧ s.Every P := by
  rw [create_eq_plant, every_plant_iff]
  simp

theorem Every.setData (h : s.Every P) {d : NodeData} (hd : d.Fits P) (r : NodeRef) :
    (s.setData r d).Every P := by
  intro n hn
  unfold Store.setData at hn
  rw [Forest.toList_relabel] at hn
  obtain ⟨m, hm, rfl⟩ := List.mem_map.mp hn
  split
  · exact hd
  · exact h m hm

/-! ## Nodes that move -/

theorem toList_takeOut_subset (s : Store) (r : NodeRef) : (s.takeOut r).forest.toList ⊆ s.forest.toList := by
  unfold takeOut
  split
  · rename_i n c hp ht
    intro m hm
    rw [Forest.toList_node, List.mem_cons, List.mem_append] at hm
    have htree := (mem_trees_of_tree? ht).1
    rcases hm with rfl | hm | hm
    · exact Forest.mem_toList_of_mem_trees htree
    · exact Forest.mem_toList_of_mem_labels htree (List.mem_cons_of_mem _ hm)
    · exact Forest.toList_prune_subset _ _ hm
  · exact List.Subset.refl _

theorem toList_place_subset (s : Store) (p c : NodeRef) (before : Option NodeRef) :
    (s.place p c before).forest.toList ⊆ s.forest.toList := by
  unfold place
  split
  · rename_i tree ht
    intro m hm
    rcases Forest.mem_toList_of_editChildren hm with hm | ⟨u, hu, hm⟩
    · exact Forest.toList_prune_subset _ _ hm
    · rcases List.mem_append.mp ((Forest.perm_adopt u.2 _ tree).mem_iff.mp hm) with hm | hm
      · exact Forest.mem_toList_of_mem_labels (mem_trees_of_tree? ht).1 hm
      · exact Forest.toList_prune_subset _ _ (Forest.mem_toList_of_mem_labels hu (List.mem_cons_of_mem _ hm))
  · exact List.Subset.refl _

theorem toList_scatter_subset (s : Store) (r : NodeRef) : (s.scatter r).forest.toList ⊆ s.forest.toList := by
  unfold scatter
  split
  · rename_i n c ht
    intro m hm
    rcases List.mem_append.mp (Forest.toList_append _ _ ▸ hm) with hm | hm
    · exact Forest.mem_toList_of_mem_labels (mem_trees_of_tree? ht).1 (List.mem_cons_of_mem _ hm)
    · rcases Forest.mem_toList_of_editChildren hm with hm | ⟨u, -, hm⟩
      · exact hm
      · exact absurd hm (List.not_mem_nil)
  · exact List.Subset.refl _

/-- A node that is put under another one is not lost. -/
theorem WellFormed.every_place_iff (h : s.WellFormed) {p c : NodeRef} (hi : s.Insertable p c)
    (before : Option NodeRef) : (s.place p c before).Every P ↔ s.Every P := by
  refine ⟨fun hs => ?_, fun hs => hs.of_subset (toList_place_subset s p c before)⟩
  obtain ⟨d, hd, -⟩ := hi.container
  obtain ⟨e, he, -⟩ := hi.movable
  obtain ⟨k, hk⟩ := exists_tree?_of_get? he
  have hlive : s.Live p := get?_isSome_iff.mp (by rw [hd]; rfl)
  obtain ⟨u, hu, -⟩ := h.distinct.find?_prune hk hlive hi.notAbove
  have hperm := h.distinct.perm_place (fun n => before == some n.ref) hk hu
  unfold Store.place at hs
  rw [hk] at hs
  exact fun n hn => hs n (hperm.mem_iff.mpr hn)

/-! ## Operations -/

/-- What holds of every element still does. -/
def Sustains (P : Element → Prop) (s s' : Store) : Prop := s.Every P → s'.Every P

theorem lasting_sustains : Lasting (Sustains P) := ⟨fun _ h => h, fun h h' hs => h' (h hs)⟩

theorem sustains_of_ends {α : Type} {x : StoreM α} (hx : ∀ s, s.Every P → Ends x s (fun _ => Every P) (Every P)) :
    Keeps (Sustains P) x := by
  intro s
  by_cases h : s.Every P
  · exact (hx s h).mono (fun _ _ h' _ => h') fun _ h' _ => h'
  · exact Ends.trivial.mono (fun _ _ _ hs => absurd hs h) fun _ _ hs => absurd hs h

theorem sustains_create {d : NodeData} (hd : d.Fits P) :
    Keeps (Sustains P) (modifyGet (·.create d) : StoreM NodeRef) := fun _ =>
  Ends.modifyGet fun hs => every_create_iff.mpr ⟨hd, hs⟩

theorem sustains_takeOut (s : Store) (r : NodeRef) : s.Sustains P (s.takeOut r) := fun hs =>
  hs.of_subset (toList_takeOut_subset s r)

theorem sustains_place (s : Store) (p c : NodeRef) (before : Option NodeRef) :
    s.Sustains P (s.place p c before) := fun hs => hs.of_subset (toList_place_subset s p c before)

theorem sustains_scatter (s : Store) (r : NodeRef) : s.Sustains P (s.scatter r) := fun hs =>
  hs.of_subset (toList_scatter_subset s r)

theorem sustains_insertBefore (p c : NodeRef) (reference : Option NodeRef) :
    Keeps (Sustains P) (insertBefore p c reference) :=
  keeps_insertBefore lasting_sustains (fun s p c b _ => sustains_place s p c b) p c reference

theorem sustains_insertAfter (r : NodeRef) (nodes : List NodeRef) : Keeps (Sustains P) (insertAfter r nodes) :=
  keeps_insertAfter lasting_sustains (fun s p c b _ => sustains_place s p c b) r nodes

theorem sustains_insertAllBefore (r : NodeRef) (nodes : List NodeRef) :
    Keeps (Sustains P) (insertAllBefore r nodes) :=
  keeps_insertAllBefore lasting_sustains (fun s p c b _ => sustains_place s p c b) r nodes

theorem sustains_replaceWith (old : NodeRef) (nodes : List NodeRef) : Keeps (Sustains P) (replaceWith old nodes) :=
  keeps_replaceWith lasting_sustains (fun s r => sustains_takeOut s r) (fun s p c b _ => sustains_place s p c b)
    old nodes

theorem sustains_clearChildren (r : NodeRef) : Keeps (Sustains P) (clearChildren r) :=
  .modify fun s => sustains_scatter s r

/-- The elements of a copy are like those it is made of. -/
theorem sustains_cloneSubtree (r : NodeRef) : Keeps (Sustains P) (cloneSubtree r) := by
  unfold cloneSubtree
  intro s
  refine Ends.get_bind ?_
  split
  · exact Ends.throw id
  · rename_i n c ht
    refine Ends.ite (fun _ => Ends.throw_bind id) fun _ => Ends.modifyGet fun hs => ?_
    have htree := (mem_trees_of_tree? ht).1
    have hlabels : ∀ m ∈ n :: c.toList, m.data.Fits P := fun m hm =>
      hs m (Forest.mem_toList_of_mem_labels htree hm)
    obtain ⟨hn, hc⟩ := List.forall_mem_cons.mp hlabels
    rw [copy_eq_plant, every_plant_iff, Forest.toList_map, List.forall_mem_map]
    exact ⟨⟨hn, hc⟩, hs⟩

theorem sustains_freeSubtree (r : NodeRef) : Keeps (Sustains P) (freeSubtree r) := by
  refine .bind lasting_sustains (keeps_require lasting_sustains r) fun d => ?_
  refine .ite (.throw_bind lasting_sustains _ _) fun s => Ends.modifyGet fun hs => ?_
  exact hs.of_subset (Forest.toList_prune_subset _ _)

theorem sustains_setTextContent (r : NodeRef) (text : String) : Keeps (Sustains P) (setTextContent r text) := by
  refine .bind lasting_sustains (keeps_require lasting_sustains r) fun d => ?_
  cases d with
  | text t => exact .modify fun s hs => hs.setData (d := .text text) trivial r
  | comment t => exact .modify fun s hs => hs.setData (d := .comment text) trivial r
  | document => exact .pure lasting_sustains _
  | element e =>
    refine .bind lasting_sustains (sustains_clearChildren r) fun _ => .ite (.pure lasting_sustains _) ?_
    refine .bind lasting_sustains (sustains_create trivial) fun c => ?_
    exact .modify fun s => sustains_place s r c none

/-- Something holds of every element without attributes, declarations and state. -/
def Bare (P : Element → Prop) : Prop := ∀ localName qualifier ns, P ⟨localName, qualifier, ns, [], [], {}⟩

theorem Bare.namedElement (hP : Bare P) (name : QualifiedName) : P (namedElement name) := by
  unfold Store.namedElement
  split
  · exact hP _ _ _
  · exact hP _ _ _

theorem sustains_createElementNs (hP : Bare P) (ns : Option String) (name : String) :
    Keeps (Sustains P) (createElementNs ns name) :=
  .bind lasting_sustains (keeps_liftResult lasting_sustains _) fun q =>
    sustains_create (d := .element (namedElement q)) (hP.namedElement q)

/-- The node that a call inserts as it is. -/
def Operation.inserted : Operation → List NodeData
  | insertNode data _ => [data]
  | _ => []

/-- **A call brings elements without attributes and declarations, and the one it inserts as it is.** -/
theorem sustains_run (hP : Bare P) {o : Operation} (ho : ∀ data ∈ o.inserted, data.Fits P) :
    Keeps (Sustains P) o.run := by
  have hL := lasting_sustains (P := P)
  cases o with
  | createElement tag => exact (sustains_create (d := .element (htmlElement tag)) (hP _ _ _)).discard
  | createElementNs ns name => exact (sustains_createElementNs hP ns name).discard
  | createText text => exact (sustains_create (d := .text text) trivial).discard
  | createComment text => exact (sustains_create (d := .comment text) trivial).discard
  | insertNode data hd => exact (sustains_create (ho data (List.mem_singleton_self data))).discard
  | appendChild parent child => exact sustains_insertBefore parent child none
  | insertBefore parent child reference => exact sustains_insertBefore parent child reference
  | removeChild parent child => exact keeps_removeChild hL sustains_takeOut parent child
  | insertAfter reference nodes => exact sustains_insertAfter reference nodes
  | insertAllBefore reference nodes => exact sustains_insertAllBefore reference nodes
  | replaceWith old nodes => exact sustains_replaceWith old nodes
  | detach r => exact keeps_detach hL sustains_takeOut r
  | clearChildren r => exact sustains_clearChildren r
  | cloneSubtree r => exact (sustains_cloneSubtree r).discard
  | freeSubtree r => exact (sustains_freeSubtree r).discard
  | setTextContent r text => exact sustains_setTextContent r text

/-! ## Changed elements -/

/-- What the element becomes is all that has to be looked at. -/
theorem Every.ends_updateElement (h : s.Every P) {f : Element → Element}
    (hf : ∀ e, s.element? r = some e → P (f e)) :
    Ends (updateElement r f) s (fun _ => Every P) (Every P) := by
  refine ((ends_requireElement s r).mono (fun _ _ he => he) fun _ he => he ▸ h).bind ?_
  rintro e s ⟨rfl, he⟩
  exact Ends.modify (h.setData (d := .element (f e)) (hf e (element?_eq_some_iff.mpr he)) r)

theorem sustains_updateElement {f : Element → Element} (hf : ∀ e, P e → P (f e)) (r : NodeRef) :
    Keeps (Sustains P) (updateElement r f) :=
  sustains_of_ends fun _ h => h.ends_updateElement fun e he => hf e (h.element he)

/-- Something that holds of every element without attributes and declarations, and that no edit of an element takes
away. -/
structure Steady (P : Element → Prop) : Prop where
  bare : Bare P
  control : ∀ e c, P e → P { e with control := c }
  setAttr : ∀ e a, P e → P (e.setAttr a)
  removeAttr : ∀ e ns localName, P e → P (e.removeAttr ns localName)
  declare : ∀ e property value, P e → P (e.declare property value)

theorem Steady.reattributed (hP : Steady P) {e e' : Element} (h : e.Reattributed e') (he : P e) : P e' := by
  rcases h with ⟨a, rfl⟩ | ⟨ns, localName, rfl⟩
  · exact hP.setAttr e a he
  · exact hP.removeAttr e ns localName he

/-! ## Planted trees -/

/-- **What holds of the elements of planted trees is what holds of those they are planted from**, if their use
leaves it at that. -/
theorem ends_plantEach_every {I E : Store → Prop} (use : NodeRef → StoreM Unit) {f : Forest NodeData}
    (hplant : ∀ s d k, I s → Plantable d k → I (s.plant d k).2)
    (huse : ∀ r s, I s → Ends (use r) s (fun _ s' => I s' ∧ (s'.Every P ↔ s.Every P)) E)
    (hf : Plantables f) (hs : I s) :
    Ends (plantEach use f) s (fun _ s' => I s' ∧ (s'.Every P ↔ (∀ x ∈ f.toList, x.Fits P) ∧ s.Every P)) E := by
  induction f generalizing s with
  | nil => exact Ends.pure ⟨hs, by simp⟩
  | node d k n _ ihn =>
    unfold plantEach
    refine (Ends.modifyGet (f := fun s : Store => s.plant d k)
      (Q := fun _ s' => I s' ∧ (s'.Every P ↔ (d.Fits P ∧ ∀ x ∈ k.toList, x.Fits P) ∧ s.Every P))
      ⟨hplant s d k hs hf.1, every_plant_iff⟩).bind fun r s₁ h₁ => ?_
    refine (huse r s₁ h₁.1).bind fun _ s₂ h₂ => (ihn hf.2 h₂.1).bind fun rs s₃ h₃ => Ends.pure ⟨h₃.1, ?_⟩
    rw [h₃.2, h₂.2, h₁.2, Forest.toList_node, List.forall_mem_cons, List.forall_mem_append]
    constructor
    · rintro ⟨hn, hk, hold⟩
      exact ⟨⟨hk.1, hk.2, hn⟩, hold⟩
    · rintro ⟨⟨hd, hk, hn⟩, hold⟩
      exact ⟨hn, ⟨hd, hk⟩, hold⟩

end Store

end DomHost
