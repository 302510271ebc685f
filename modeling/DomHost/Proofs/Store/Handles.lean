import DomHost.Proofs.Along
import DomHost.Proofs.Store.Accounts

/-!
# References are not used again

A run of calls on a new store hands out references and takes references back. As long as no cell is taken
back so often that its generation wraps around, no reference comes twice, one that was taken back names no
node any more, and freeing a tree takes back the references of this tree alone.

* `Store.Dealings`, `Store.Command`: what calls hand out and take back;
* `Store.Accounts`, **`Store.Command.ends_deal`**: the accounts of a store, which every call keeps;
* `Store.accounts_run`: the accounts after a run;
* `Store.Frees`: what freeing a tree does;
* **`Store.unaliased_run`**: in a run that wears out no cell references are not used again.
-/

namespace DomHost.Store

/-! ## Calls -/

/-- The references that a call hands out, and those that it takes back. -/
structure Dealings where
  issued : List NodeRef := []
  freed : List NodeRef := []
deriving DecidableEq

/-- A call that makes one node. -/
def creation (x : StoreM NodeRef) : StoreM Dealings := do
  let r ← x
  return { issued := [r] }

/-- A call that makes no node and removes none. -/
def change (x : StoreM Unit) : StoreM Dealings := do
  x
  return {}

/-- Carries out a call that builds or changes the tree. A copy hands out the references of all its nodes,
and a text in the place of the children of an element hands out its own. -/
def Operation.deal : Operation → StoreM Dealings
  | createElement tag => creation (Store.createElement tag)
  | createElementNs ns name => creation (Store.createElementNs ns name)
  | createText text => creation (Store.createText text)
  | createComment text => creation (Store.createComment text)
  | insertNode data _ => creation (modifyGet (·.create data))
  | cloneSubtree r => do
    let copy ← Store.cloneSubtree r
    return { issued := (← get).descendants copy }
  | freeSubtree r => do
    let freed ← Store.freeSubtree r
    return { freed }
  | setTextContent r text => do
    let before ← get
    Store.setTextContent r text
    let s ← get
    return { issued := if (before.element? r).isSome then s.children r else [] }
  | o => change o.run

/-- A call with any arguments: one that builds or changes the tree, one that inserts a node of any kind, or
one that changes what a node is. -/
inductive Command where
  | build (o : Operation)
  | insertNode (data : NodeData)
  | setData (r : NodeRef) (data : NodeData)
  | setAttribute (r : NodeRef) (name value : String)
  | setAttributeNs (r : NodeRef) (ns : Option String) (name value : String)
  | removeAttribute (r : NodeRef) (ns : Option String) (name : String)
  | toggleAttribute (r : NodeRef) (name : String) (force : Option Bool)
  | setStyle (r : NodeRef) (property value : String)

namespace Command

/-- Carries out a call. -/
def deal : Command → StoreM Dealings
  | build o => o.deal
  | insertNode data => creation (modifyGet (·.create data))
  | setData r data => change (modify (·.setData r data))
  | setAttribute r name value => change (Store.setAttribute r name value)
  | setAttributeNs r ns name value => change (Store.setAttributeNs r ns name value)
  | removeAttribute r ns name => change (Store.removeAttribute r ns name)
  | toggleAttribute r name force => change (discard (Store.toggleAttribute r name force))
  | setStyle r property value => change (Store.setStyle r property value)

/-- The store after a call, whether it succeeded or failed. -/
def apply (s : Store) (c : Command) : Store :=
  match c.deal s with
  | .ok _ s => s
  | .error _ s => s

/-- What a call hands out and takes back; nothing when it fails. -/
def dealings (s : Store) (c : Command) : Dealings :=
  match c.deal s with
  | .ok d _ => d
  | .error _ _ => {}

end Command

/-- A new store after calls. -/
def after (cs : List Command) : Store := cs.foldl Command.apply .new

/-- The references that a run on a new store hands out, after that of the document. -/
def handedOut (cs : List Command) : List NodeRef :=
  .root :: along Command.apply (fun s c => (c.dealings s).issued) .new cs

/-- The references that a run on a new store takes back. -/
def takenBack (cs : List Command) : List NodeRef :=
  along Command.apply (fun s c => (c.dealings s).freed) .new cs

/-! ## Accounts -/

/-- The accounts of a store: what was handed out, and what was taken back. -/
def Accounts (s : Store) (issued freed : List NodeRef) : Prop := s.cells.Accounts s.refs issued freed

variable {s s' : Store} {r : NodeRef} {issued freed : List NodeRef}

theorem accounts_new : new.Accounts [.root] [] where
  hold := wellFormed_new.cells
  balance := List.Perm.refl _
  turns := fun _ => rfl
  generation := by
    intro i
    cases i <;> rfl
  somewhere := List.not_mem_nil

/-- A new tree stands in front of all others. -/
theorem descendants_plant (s : Store) (data : NodeData) (children : Forest NodeData) :
    (s.plant data children).2.descendants (s.plant data children).1 = (s.plant data children).1 ::
      (children.rename embody s.cells.draw.2).1.toList.map (·.ref) := by
  have ht : (s.plant data children).2.tree? (s.plant data children).1 =
      some (⟨(s.plant data children).1, data⟩, (children.rename embody s.cells.draw.2).1) := by
    have hself : is (s.plant data children).1 (⟨(s.plant data children).1, data⟩ : Node) = true :=
      is_iff.mpr rfl
    exact if_pos hself
  rw [descendants_of_tree? ht, Forest.labels_mk, List.map_cons]

namespace Accounts

variable (h : s.Accounts issued freed)
include h

theorem distinct : s.Distinct := h.hold.nodup

theorem retain (hs : s.Retains s') : s'.Accounts issued freed := by
  obtain ⟨hc, hp⟩ := hs h.distinct
  have hperm := h.perm hp
  rwa [← hc] at hperm

/-- **The nodes of a new tree get references that were not handed out to live nodes.** -/
theorem plant (data : NodeData) (children : Forest NodeData) :
    (s.plant data children).2.Accounts
      (issued ++ (s.plant data children).2.descendants (s.plant data children).1) freed := by
  have hrefs : (s.plant data children).2.refs =
      (s.plant data children).2.descendants (s.plant data children).1 ++ s.refs := by
    rw [descendants_plant, refs_plant, List.cons_append]
  unfold Accounts
  rw [hrefs]
  refine h.extend (hrefs ▸ hold_plant h.hold data children) fun i => ?_
  exact (Cells.generation_rename children _ i).trans (Cells.generation_draw s.cells i)

theorem create (data : NodeData) :
    (s.create data).2.Accounts (issued ++ [(s.create data).1]) freed := by
  have hplant := h.plant data .nil
  rwa [descendants_plant] at hplant

theorem without (r : NodeRef) : (s.without r).Accounts issued (freed ++ s.descendants r) :=
  (h.perm (h.distinct.perm_without r).symm).releaseAll

/-! ### Calls -/

theorem ends_change {x : StoreM Unit} (hx : Keeps Retains x) :
    Ends (change x) s (fun d s' => s'.Accounts (issued ++ d.issued) (freed ++ d.freed))
      fun s' => s'.Accounts issued freed := by
  refine ((hx s).mono (fun _ _ hs => h.retain hs) fun _ hs => h.retain hs).bind fun _ s' h' => ?_
  refine Ends.pure ?_
  rwa [List.append_nil, List.append_nil]

theorem ends_create (data : NodeData) :
    Ends (modifyGet (·.create data) : StoreM NodeRef) s
      (fun r s' => s'.Accounts (issued ++ [r]) freed) fun s' => s'.Accounts issued freed :=
  Ends.modifyGet (h.create data)

theorem ends_createElementNs (ns : Option String) (name : String) :
    Ends (createElementNs ns name) s (fun r s' => s'.Accounts (issued ++ [r]) freed)
      fun s' => s'.Accounts issued freed := by
  have hname := keeps_liftResult lasting_retains (QualifiedName.extract ns name) s
  refine (hname.mono (fun _ _ hs => h.retain hs) fun _ hs => h.retain hs).bind ?_
  exact fun _ _ h => h.ends_create _

theorem ends_freeSubtree (r : NodeRef) :
    Ends (freeSubtree r) s (fun rs s' => s'.Accounts issued (freed ++ rs))
      fun s' => s'.Accounts issued freed := by
  refine (Store.ends_freeSubtree s r).mono ?_ fun _ he => he ▸ h
  rintro _ _ ⟨rfl, rfl, -⟩
  exact h.without r

theorem ends_cloneSubtree (r : NodeRef) :
    Ends (cloneSubtree r) s (fun c s' => s'.Accounts (issued ++ s'.descendants c) freed)
      fun s' => s'.Accounts issued freed := by
  unfold Store.cloneSubtree
  refine Ends.get_bind ?_
  split
  · exact Ends.throw h
  · rename_i n c _
    refine Ends.ite (fun _ => Ends.throw_bind h) fun _ => Ends.modifyGet ?_
    rw [copy_eq_plant]
    exact h.plant n.data (c.map (·.data))

/-- **A new node under a node without children is its only child.** -/
theorem place_create {n : Node} (hr : s.tree? r = some (n, .nil)) (data : NodeData) :
    ((s.create data).2.place r (s.create data).1 none).Accounts
      (issued ++ ((s.create data).2.place r (s.create data).1 none).children r) freed := by
  have hnew : ¬ s.Live (s.create data).1 := by
    have hn := (h.create data).hold.nodup
    exact (List.nodup_cons.mp hn).1
  have hforest := Store.place_create (r := r) hnew
  have hcells := cells_place (s.create data).2 r (s.create data).1 none
  have hchildren : ((s.create data).2.place r (s.create data).1 none).children r =
      [(s.create data).1] := by
    rw [children, tree?, hforest, Forest.find?_editChildren _ hr]
    rfl
  have hrefs : ((s.create data).2.place r (s.create data).1 none).refs.Perm (s.create data).2.refs := by
    have hp := Forest.perm_editChildren
      (·.adopt (fun _ => false) ((⟨(s.create data).1, data⟩ : Node), .nil)) (h.distinct.countP_le_one r) hr
    rw [← hforest, Forest.toList_nil, List.append_nil] at hp
    exact (hp.trans List.perm_append_comm).map _
  have hperm := (h.create data).perm hrefs
  rw [← hcells] at hperm
  rw [hchildren]
  exact hperm

theorem ends_setTextContent (r : NodeRef) (text : String) :
    Ends (setTextContent r text) s
      (fun _ s' => s'.Accounts (issued ++ if (s.element? r).isSome then s'.children r else []) freed)
      fun s' => s'.Accounts issued freed := by
  unfold Store.setTextContent
  refine ((ends_require s r).mono (fun _ _ he => he) fun _ he => he ▸ h).bind ?_
  rintro d s ⟨rfl, hd⟩
  have helement : s.element? r = d.element? := by
    rw [element?, hd]
    rfl
  rw [helement]
  cases d with
  | text t => exact Ends.modify ((List.append_nil issued).symm ▸ h.retain (retains_setData s r _))
  | comment t => exact Ends.modify ((List.append_nil issued).symm ▸ h.retain (retains_setData s r _))
  | document => exact Ends.pure ((List.append_nil issued).symm ▸ h)
  | element e =>
    obtain ⟨c, ht⟩ := exists_tree?_of_get? hd
    have htree := tree?_scatter h.distinct ht
    have hs := h.retain (retains_scatter s r)
    refine (Ends.modify (f := fun s : Store => s.scatter r) (Q := fun _ s' => s' = s.scatter r) rfl).bind ?_
    rintro _ _ rfl
    refine Ends.ite (fun _ => Ends.pure ?_) fun _ => hs.place_create htree (.text text)
    rw [children_of_tree? htree]
    exact (List.append_nil issued).symm ▸ hs

end Accounts

/-- What a call hands out is entered into the accounts. -/
theorem ends_creation {x : StoreM NodeRef} (hx : Ends x s
      (fun r s' => s'.Accounts (issued ++ [r]) freed) fun s' => s'.Accounts issued freed) :
    Ends (creation x) s (fun d s' => s'.Accounts (issued ++ d.issued) (freed ++ d.freed))
      fun s' => s'.Accounts issued freed :=
  hx.bind fun _ _ h => Ends.pure ((List.append_nil freed).symm ▸ h)

theorem Operation.ends_deal (h : s.Accounts issued freed) (o : Operation) :
    Ends o.deal s (fun d s' => s'.Accounts (issued ++ d.issued) (freed ++ d.freed))
      fun s' => s'.Accounts issued freed := by
  cases o with
  | createElement tag => exact ends_creation (h.ends_create _)
  | createElementNs ns name => exact ends_creation (h.ends_createElementNs ns name)
  | createText text => exact ends_creation (h.ends_create _)
  | createComment text => exact ends_creation (h.ends_create _)
  | insertNode data _ => exact ends_creation (h.ends_create data)
  | cloneSubtree r =>
    refine (h.ends_cloneSubtree r).bind fun c s' h' => Ends.get_bind (Ends.pure ?_)
    exact (List.append_nil freed).symm ▸ h'
  | freeSubtree r =>
    refine (h.ends_freeSubtree r).bind fun rs s' h' => Ends.pure ?_
    exact (List.append_nil issued).symm ▸ h'
  | setTextContent r text =>
    refine Ends.get_bind ((h.ends_setTextContent r text).bind fun _ s' h' => ?_)
    refine Ends.get_bind (Ends.pure ?_)
    exact (List.append_nil freed).symm ▸ h'
  | appendChild parent child => exact h.ends_change (retains_insertBefore parent child none)
  | insertBefore parent child reference =>
    exact h.ends_change (retains_insertBefore parent child reference)
  | removeChild parent child => exact h.ends_change (retains_removeChild parent child)
  | insertAfter reference nodes => exact h.ends_change (retains_insertAfter reference nodes)
  | insertAllBefore reference nodes => exact h.ends_change (retains_insertAllBefore reference nodes)
  | replaceWith old nodes => exact h.ends_change (retains_replaceWith old nodes)
  | detach r => exact h.ends_change (retains_detach r)
  | clearChildren r => exact h.ends_change (.modify fun s => retains_scatter s r)

/-- **Every call keeps the accounts, whether it succeeds or fails.** -/
theorem Command.ends_deal (h : s.Accounts issued freed) (c : Command) :
    Ends c.deal s (fun d s' => s'.Accounts (issued ++ d.issued) (freed ++ d.freed))
      fun s' => s'.Accounts issued freed := by
  have hset := fun r (s : Store) => retains_setData s r
  have hupdate := fun r f => keeps_updateElement lasting_retains (hset r) f
  cases c with
  | build o => exact o.ends_deal h
  | insertNode data => exact ends_creation (h.ends_create data)
  | setData r data => exact h.ends_change (.modify fun s => hset r s data)
  | setAttribute r name value =>
    exact h.ends_change (keeps_setAttribute lasting_retains (fun f _ => hupdate r f) name value)
  | setAttributeNs r ns name value =>
    exact h.ends_change (keeps_setAttributeNs lasting_retains (fun f _ => hupdate r f) ns name value)
  | removeAttribute r ns name => exact h.ends_change (hupdate r _)
  | toggleAttribute r name force =>
    exact h.ends_change (keeps_toggleAttribute lasting_retains (fun f _ => hupdate r f) name force).discard
  | setStyle r property value => exact h.ends_change (hupdate r _)

/-! ## Freeing a tree -/

/-- What freeing a tree takes back, and what becomes of the nodes of the store. -/
structure Frees (s : Store) (r : NodeRef) (freed : List NodeRef) (s' : Store) : Prop where
  /-- What is taken back are the references of the nodes at or below the node. -/
  mem_iff : ∀ x, x ∈ freed ↔ s.isInclusiveAncestor r x = true
  nodup : freed.Nodup
  /-- They come in pre-order: those of a node in front of those below its children, child by child. -/
  preorder : freed = s.descendants r ∧
    ∀ x, s.Live x → s.descendants x = x :: (s.children x).flatMap s.descendants
  gone : ∀ x ∈ freed, s'.get? x = none
  others : ∀ x, x ∉ freed → s'.get? x = s.get? x

/-- A live node that is not the document is freed. -/
theorem freeSubtree_ok {d : NodeData} (hd : s.get? r = some d) (hdoc : d.isDocument = false) :
    freeSubtree r s = .ok (s.descendants r) (s.without r) := by
  change EStateM.bind (require r) _ s = _
  unfold EStateM.bind
  rw [require_of_get? hd]
  simp only [hdoc]
  rfl

namespace Distinct

variable (h : s.Distinct)
include h

/-- The nodes that are not removed are what they were. -/
theorem get?_without {x : NodeRef} (hx : x ∉ s.descendants r) : (s.without r).get? x = s.get? x := by
  have hn : (s.without r).Distinct := ((h.perm_without r).nodup_iff.mp h).of_append_right
  cases ht : s.tree? r with
  | none =>
    have hs : (s.without r).forest = s.forest := Forest.prune_eq_self (Forest.find?_eq_none.mp ht)
    rw [get?, get?, tree?, tree?, hs]
  | some t =>
    have hp := Forest.perm_prune (h.countP_le_one r) ht
    refine Option.ext fun d => ?_
    rw [hn.get?_eq_some_iff, h.get?_eq_some_iff, hp.mem_iff, List.mem_append]
    refine ⟨Or.inr, fun hm => hm.resolve_left fun hl => hx ?_⟩
    rw [descendants_of_tree? ht]
    exact List.mem_map_of_mem hl

/-- **Freeing a tree frees this tree alone**, and only the document and what is not live are refused. -/
theorem ends_freeSubtree (r : NodeRef) :
    Ends (freeSubtree r) s (s.Frees r)
      fun s' => s' = s ∧ ∀ d, s.get? r = some d → d.isDocument = true := by
  by_cases hr : ∃ d, s.get? r = some d ∧ d.isDocument = false
  · obtain ⟨d, hd, hdoc⟩ := hr
    refine Ends.of_eq (freeSubtree_ok hd hdoc) ⟨fun x => ?_, ?_, ⟨rfl, fun x => h.descendants_eq⟩, ?_, ?_⟩
    · rw [h.mem_descendants_iff, isInclusiveAncestor, List.contains_iff_mem]
    · exact h.nodup_descendants r
    · intro x hx
      rw [← Option.not_isSome_iff_eq_none, get?_isSome_iff, h.live_without]
      exact fun hl => hl.2 hx
    · exact fun x => h.get?_without
  · refine (Store.ends_freeSubtree s r).mono (fun _ _ he => absurd he.2.2 hr) fun _ he => ⟨he, ?_⟩
    intro d hd
    by_contra hdoc
    exact hr ⟨d, hd, by simpa using hdoc⟩

end Distinct

/-! ## Runs -/

theorem accounts_apply (h : s.Accounts issued freed) (c : Command) :
    (c.apply s).Accounts (issued ++ (c.dealings s).issued) (freed ++ (c.dealings s).freed) := by
  have he := c.ends_deal h
  unfold Ends at he
  unfold Command.apply Command.dealings
  cases hc : c.deal s with
  | ok d s' =>
    rw [hc] at he
    exact he
  | error e s' =>
    rw [hc] at he
    exact (List.append_nil issued).symm ▸ (List.append_nil freed).symm ▸ he

/-- **The accounts after a run.** -/
theorem accounts_run (cs : List Command) : (after cs).Accounts (handedOut cs) (takenBack cs) := by
  induction cs using List.reverseRecOn with
  | nil => exact accounts_new
  | append_singleton cs c ih =>
    have hstep := accounts_apply ih c
    rw [after, List.foldl_concat, handedOut, takenBack, along_concat, along_concat, ← List.cons_append]
    exact hstep

/-- References are not used again in a run on a new store. -/
structure Unaliased (cs : List Command) : Prop where
  /-- No reference is handed out twice. -/
  fresh : (handedOut cs).Nodup
  /-- Every reference that was handed out is that of a live node or was taken back. -/
  balance : (handedOut cs).Perm ((after cs).refs ++ takenBack cs)
  /-- A reference that was taken back names no node from then on. -/
  gone : ∀ front middle back, cs = front ++ middle ++ back →
    ∀ r ∈ takenBack front, (after (front ++ middle)).get? r = none
  /-- Freeing a tree frees the nodes of this tree, in pre-order, and leaves all others as they are. It is
  refused for the document and for what is not live, and then nothing changes. -/
  frees : ∀ front r back, cs = front ++ .build (.freeSubtree r) :: back →
    Ends (freeSubtree r) (after front) ((after front).Frees r)
      fun s' => s' = after front ∧ ∀ d, (after front).get? r = some d → d.isDocument = true

theorem takenBack_append (front back : List Command) : takenBack front ⊆ takenBack (front ++ back) := by
  rw [takenBack, takenBack, along_append]
  exact List.subset_append_left _ _

theorem countP_takenBack_le (p : NodeRef → Bool) (front back : List Command) :
    (takenBack front).countP p ≤ (takenBack (front ++ back)).countP p := by
  rw [takenBack, takenBack, along_append, List.countP_append]
  exact Nat.le_add_right _ _

/-- **As long as no cell is freed so often that its generation wraps around, references are not used
again.** -/
theorem unaliased_run (cs : List Command)
    (hfew : ∀ i, (takenBack cs).countP (Cells.names i) < 2 ^ 32) : Unaliased cs where
  fresh := (accounts_run cs).nodup hfew
  balance := (accounts_run cs).balance
  gone := by
    rintro front middle back rfl r hr
    have hcount := fun i =>
      (countP_takenBack_le (Cells.names i) (front ++ middle) back).trans_lt (hfew i)
    rw [← Option.not_isSome_iff_eq_none, get?_isSome_iff]
    exact (accounts_run (front ++ middle)).notMem_live hcount (takenBack_append front middle hr)
  frees := fun front r _ _ => (accounts_run front).distinct.ends_freeSubtree r

/-- A cell that is used again answers to a new reference. -/
theorem unaliased_run_reused :
    let cs : List Command :=
      [.build (.createText "a"), .build (.freeSubtree (.cell 1 0)), .build (.createComment "b")]
    handedOut cs = [.root, .cell 1 0, .cell 1 1] ∧ takenBack cs = [.cell 1 0] ∧
      (∀ i, (takenBack cs).countP (Cells.names i) < 2 ^ 32) ∧ Unaliased cs := by
  intro cs
  have htaken : takenBack cs = [.cell 1 0] := by decide
  have hfew : ∀ i, (takenBack cs).countP (Cells.names i) < 2 ^ 32 := by
    intro i
    rw [htaken]
    exact List.countP_le_length.trans_lt (by decide)
  exact ⟨by decide, htaken, hfew, unaliased_run cs hfew⟩

end DomHost.Store
