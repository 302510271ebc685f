import DomHost.Proofs.Host.Leftovers
import DomHost.Proofs.Host.Prototypes
import DomHost.Proofs.Scene.Described
import DomHost.Proofs.Store.Copies

/-!
# Copies of templates are bound as they are described

Whoever copies a template names an id for the copy and one for each slot. The copy is a new tree of the same
shape, so the ways to the slots lead to the nodes of the copy that stand where the slots were described, and
each of them gets its id. At last the root gets the id of the copy. As a node has at most one id, the id of a
slot that is the root itself is not bound in the end.

* `Scene.Loads`: what copying a template gives;
* `Scene.tieSlots_eq`: ids that are tied to the slots of a copy;
* **`Scene.Sound.ends_loadTemplate_loads`**: copying a described template;
* `Host.described_moments`: in every run the templates are as they are described;
* **`Host.loads_moments`**: so copying a template succeeds, and binds all the ids.
-/

namespace DomHost

namespace Store

variable {s : Store} {r : NodeRef} {tree : Node × Forest Node}

theorem WellFormed.nodup_labels (h : s.WellFormed) (ht : tree ∈ s.forest.tops) :
    ((Forest.labels tree).map (·.ref)).Nodup := by
  have hrefs : s.refs.Nodup := h.nodup
  rw [refs, Forest.toList_eq_flatMap_tops, List.map_flatMap] at hrefs
  exact (List.nodup_flatMap.mp hrefs).1 tree ht

end Store

namespace Scene

variable {κ : Type} {closed : Prop} {s t : Scene κ} {ts : List (Node × Forest Node)} {number : UInt32}
  {tm : Template} {id : NodeId} {slots : List NodeId} {copy : Node × Forest Node}

/-- A copy of a template is there, and the ids that were named for it are bound. -/
structure Loads (tm : Template) (id : NodeId) (slots : List NodeId) (copy : Node × Forest Node)
    (s t : Scene κ) : Prop where
  described : ∃ f, tm.Describes f copy
  tree? : t.store.tree? copy.1.ref = some copy
  /-- The nodes of the copy are new. -/
  fresh : ∀ n ∈ Forest.labels copy, s.store.get? n.ref = none
  root : t.bindings.get? id = some copy.1.ref
  count : (slotRefs (Forest.labels copy) tm.descriptors).length = slots.length
  /-- Each id of a slot is bound to the node that is built from the slot, unless this is the root. -/
  slots : ∀ e ∈ slots.zip (slotRefs (Forest.labels copy) tm.descriptors),
    t.bindings.get? e.1 = if e.2 = copy.1.ref then none else some e.2

/-! ## Slots -/

/-- **Ids are tied one after the other to the nodes that the ways lead to.** -/
theorem tieSlots_eq {root : NodeRef} {slots : List (List Nat × NodeId)} {nodes : List NodeRef}
    (h : slots.map (fun e => s.store.childAtPath? root e.1) = nodes.map some) :
    tieSlots tm root slots s =
      .ok () { s with bindings := s.bindings.bindAll ((slots.map (·.2)).zip nodes) } := by
  induction slots generalizing s nodes with
  | nil => rfl
  | cons slot rest ih =>
    cases nodes with
    | nil => cases h
    | cons node nodes =>
      obtain ⟨hnode, hrest⟩ := List.cons.inj h
      obtain ⟨path, id⟩ := slot
      unfold tieSlots
      rw [get_bind_apply]
      simp only [hnode]
      exact ih (s := { s with bindings := s.bindings.bind id node }) hrest

namespace Sound

/-- **A described template is copied, and the ids are tied to the nodes of the copy that are slots.** -/
theorem ends_instantiate_tied (h : s.Sound closed ts) (htm : s.templates.get? number = some tm)
    (hd : s.Depicts tm) (hlen : slots.length = tm.slots.length) :
    Ends (Scene.instantiate number slots) s
      (fun root t => ∃ f copy, tm.Describes f copy ∧ copy.1.ref = root ∧ copy ∈ t.store.forest.tops ∧
        (∀ n ∈ Forest.labels copy, ¬ s.store.Live n.ref) ∧
        t.bindings = s.bindings.bindAll (slots.zip (slotRefs (Forest.labels copy) tm.descriptors)))
      fun _ => False := by
  obtain ⟨f, tree, htree, hdescribes⟩ := hd
  obtain ⟨_, -, -, hpristine⟩ := h.exists_pristine htm
  have hw := h.store.wellFormed
  have hdoc := hw.isDocument_tree? htree hpristine.detached.2
  have hclone := (ends_cloneSubtree_copied hw tm.root).succeeds (Store.cloneSubtree_eq htree hdoc)
  have hcopy := (ends_onStore s.over_self hclone).and (h.onStore_new fun held st hg => hg.cloneSubtree)
  unfold Scene.instantiate
  refine Ends.get_bind ?_
  rw [htm]
  refine Ends.ite (fun hne => absurd hlen.symm hne) fun _ => ?_
  refine (hcopy.mono (fun _ _ ho => ho) fun t ht => ht.1.document.store.elim).bind ?_
  rintro root t ⟨ho, ht, -, -⟩
  obtain ⟨_, copy, htree', htop, rfl, hnew, hroot, hbelow⟩ := ho.document.store
  obtain rfl := Option.some.inj (htree.symm.trans htree')
  have hcopied := hdescribes.of_data hroot hbelow
  have hways := hcopied.map_childAtPath? ht.store.wellFormed.distinct (Forest.mem_trees_of_mem_tops htop)
  have hzip : (tm.slots.zip slots).map (fun e => t.store.childAtPath? copy.1.ref e.1) =
      (slotRefs (Forest.labels copy) tm.descriptors).map some := by
    have hfst : (tm.slots.zip slots).map Prod.fst = tm.slots := List.map_fst_zip hlen.ge
    rw [← hways, ← congrArg (List.map _) hfst, List.map_map]
    rfl
  refine (Ends.of_eq (Q := fun _ u => u = _) (tieSlots_eq hzip) rfl).bind ?_
  rintro _ _ rfl
  refine Ends.pure ⟨f, copy, hcopied, rfl, htop, hnew, ?_⟩
  have hsnd : (tm.slots.zip slots).map Prod.snd = slots := List.map_snd_zip hlen.le
  rw [hsnd, ho.bindings]

/-- **A described template is copied, and all the ids are bound.** -/
theorem ends_loadTemplate_loads (h : s.Sound closed ts) (htm : s.templates.get? number = some tm)
    (hd : s.Depicts tm) (hlen : slots.length = tm.slots.length) (hids : (id :: slots).Nodup) :
    Ends (Scene.execute (.loadTemplate number id slots)) s (fun _ t => ∃ copy, s.Loads tm id slots copy t)
      fun _ => False := by
  have hcopy := (h.ends_instantiate_tied htm hd hlen).and (h.instantiate number slots)
  refine (hcopy.mono (fun _ _ ht => ht) fun _ hf => hf.1.elim).bind ?_
  rintro _ t ⟨⟨f, copy, hdescribes, rfl, htop, hnew, hbindings⟩, ht, hl, hr⟩
  obtain ⟨hid, hslots⟩ := List.nodup_cons.mp hids
  have hlabels := hdescribes.length_labels
  have hcount : (slotRefs (Forest.labels copy) tm.descriptors).length = slots.length := by
    rw [length_slotRefs hlabels, hlen, hdescribes.length_slots]
  refine ((ht.ends_bind_top id htop hr).and ((ht.bind id hl hr).and (ht.ends_bind id hl hr))).mono ?_
    fun _ hf => hf.1
  rintro _ u ⟨⟨hbound, hutop⟩, hu, hget, -⟩
  refine ⟨copy, ⟨f, hdescribes⟩, hu.store.wellFormed.tree?_eq_some (Forest.mem_trees_of_mem_tops hutop),
    fun n hn => ?_, hbound, hcount, fun e he => ?_⟩
  · rw [← Option.not_isSome_iff_eq_none, Store.get?_isSome_iff]
    exact hnew n hn
  · have hnodes := (slotRefs_sublist hlabels).nodup (ht.store.wellFormed.nodup_labels htop)
    have htied : t.bindings.get? e.1 = some e.2 := by
      rw [hbindings]
      exact h.bindings.get?_bindAll_zip hslots hnodes hcount he
    have hne : e.1 ≠ id := fun heq => hid (heq ▸ (List.of_mem_zip he).1)
    rw [hget, ht.bindings.get?_bind, if_neg hne, htied]
    -- the root has one id, which is that of the copy from now on
    have hroot : t.bindings.idOf? copy.1.ref = some e.1 ↔ e.2 = copy.1.ref := by
      rw [← ht.bindings.get?_eq_some_iff_idOf?, htied, Option.some.injEq]
    simp only [hroot]

/-! ## Runs -/

/-- An instruction leaves a template as it is, or defines one that has the tree that it describes. -/
theorem depicting_execute (h : s.Sound closed ts) (i : Instruction) :
    Ends (Scene.execute i) s (fun _ => s.Depicting) s.Depicting := by
  by_cases hsave : ∃ number ds, i = .saveTemplate number ds
  · obtain ⟨number, ds, rfl⟩ := hsave
    exact h.depicting_saveTemplate number ds
  · have hkeep := templates_execute (fun number ds he => hsave ⟨number, ds, he⟩) s
    exact hkeep.mono (fun _ _ ht => .of_eq ht) fun _ ht => .of_eq ht

/-- **Templates that are as they are described stay so.** -/
theorem described_of_depicting (h : s.Sound closed ts) (hi : Inherits closed ts s t) (ht : s.Depicting t)
    (hd : s.Described) : t.Described := by
  intro k tm htm
  rcases ht k tm htm with hold | hnew
  · obtain ⟨f, tree, htree, hdescribes⟩ := hd k tm hold
    exact ⟨f, tree, (h.tree?_eq hi hold htm).trans htree, hdescribes⟩
  · exact hnew

theorem described_execute (h : s.Sound closed ts) (i : Instruction) :
    Ends (Scene.execute i) s (fun _ t => s.Described → t.Described) fun t => s.Described → t.Described :=
  ((h.execute i).and (h.depicting_execute i)).mono (fun _ _ ht => h.described_of_depicting ht.1 ht.2)
    fun _ ht => h.described_of_depicting ht.1 ht.2

end Sound

end Scene

namespace Host

variable {closed : Prop} {h : Host} {d : Document} {c : Call} {calls : List Call}
  {ts : List (Node × Forest Node)}

theorem lenient_templates : Lenient fun h k : Host => k.scene.templates = h.scene.templates where
  refl _ := rfl
  trans hhk hkl := hkl.trans hhk
  bindings _ _ := rfl
  listeners _ _ := rfl
  delegation _ _ := rfl

theorem templates_onDocument {α : Type} (x : DocumentM α) :
    Keeps (fun h k : Host => k.scene.templates = h.scene.templates) (onScene (Scene.onDocument x)) :=
  keeps_onScene fun s => (Scene.keeps_onDocument Scene.lasting_templates x s).mono
    (fun _ _ ht _ => ht) fun _ ht _ => ht

/-- A call other than a pass leaves a template as it is, or defines one that has the tree that it describes. -/
theorem Call.depicting_apply (hs : h.scene.Sound closed ts) (hpass : ∀ offset len, c ≠ .applyEdits offset len) :
    h.scene.Depicting (c.apply h).scene := by
  have hL := lenient_templates.toLasting
  have hkeep : Keeps (fun h k : Host => k.scene.templates = h.scene.templates) c.run →
      h.scene.Depicting (c.apply h).scene := fun hrun =>
    Call.apply_of_ends (P := fun k => h.scene.Depicting k.scene)
      ((hrun h).mono (fun _ _ ht => .of_eq ht) fun _ ht => .of_eq ht)
  cases c with
  | start root elements => exact hkeep (keeps_start lenient_templates root elements)
  | createNode id =>
    refine hkeep (Keeps.discard ?_)
    exact .bind hL (templates_onDocument _) fun r => .bind hL (keeps_tie lenient_templates id r) fun _ => .pure hL r
  | setNode id r =>
    exact hkeep (.bind hL (templates_onDocument _).discard fun _ => keeps_tie lenient_templates id r)
  | saveTemplate number ds =>
    exact Call.apply_of_ends (P := fun k => h.scene.Depicting k.scene)
      (ends_onScene (hs.depicting_saveTemplate number ds))
  | applyEdits offset len => exact absurd rfl (hpass offset len)
  | _ => exact .of_eq (Call.sameNodes_of_proceeds rfl hpass).2.2

/-- **In every run the templates are as they are described.** -/
theorem described_moments (hd : d.Whole) (buffer : SharedBuffer) (delegates : Bool)
    (hp : (opened d buffer delegates).Permits calls) :
    ∀ s ∈ (opened d buffer delegates).moments calls, s.Described := by
  have hsound : (opened d buffer delegates).scene.IsSound False := ⟨[], Scene.sound_of_whole hd⟩
  have hchain : ((opened d buffer delegates).moments calls).IsChain fun s t => s.Described → t.Described := by
    refine isChain_moments (fun s i ⟨ts, hs⟩ => hs.described_execute i) (fun h c hs hc hpass => ?_)
      (fun _ _ hs => hs) hsound hp
    obtain ⟨ts, hs⟩ := hs
    have hinherits : Scene.Inherits False ts h.scene (c.apply h).scene :=
      Call.apply_of_ends (P := fun k => Scene.Inherits False ts h.scene k.scene) (Call.ends_run_apart hs hc hpass)
    exact hs.described_of_depicting hinherits (Call.depicting_apply hs hpass)
  refine hchain.induction _ _ (fun _ _ hstep hs => hstep hs) fun hne => ?_
  have hfirst := List.head?_eq_some_head hne
  rw [head?_moments] at hfirst
  rw [← Option.some.inj hfirst]
  exact fun k tm htm => by cases htm

/-- **In every run copying a template succeeds and binds all the ids.** -/
theorem loads_moments (hd : d.Whole) (buffer : SharedBuffer) (delegates : Bool)
    (hp : (opened d buffer delegates).Permits calls) :
    ∀ s ∈ (opened d buffer delegates).moments calls, ∀ number tm id slots,
      s.templates.get? number = some tm → slots.length = tm.descriptors.countP (·.isSlot) → (id :: slots).Nodup →
        ∃ copy t, Scene.execute (.loadTemplate number id slots) s = .ok () t ∧ s.Loads tm id slots copy t := by
  intro s hm number tm id slots htm hlen hids
  obtain ⟨ts, hs⟩ := isSound_of_mem_moments ⟨[], Scene.sound_of_whole hd⟩ hp hm
  have hdepicts := described_moments hd buffer delegates hp s hm number tm htm
  have hslots : slots.length = tm.slots.length := by
    obtain ⟨f, tree, -, hdescribes⟩ := hdepicts
    rw [hlen, hdescribes.length_slots]
  have hload := hs.ends_loadTemplate_loads htm hdepicts hslots hids
  unfold Ends at hload
  cases hrun : Scene.execute (.loadTemplate number id slots) s with
  | ok u t =>
    rw [hrun] at hload
    obtain ⟨copy, hcopy⟩ := hload
    exact ⟨copy, t, rfl, hcopy⟩
  | error e t =>
    rw [hrun] at hload
    exact hload.elim

/-- An item with a text and a comment to fill in is copied. -/
theorem exists_loads_moments :
    let h := opened .new (.new 1 1) false
    let calls : List Call := [.saveTemplate 1 [.element "li" none [] 2 false, .dynamicText, .placeholder]]
    let s := (calls.foldl Call.apply h).scene
    h.Permits calls ∧ s ∈ h.moments calls ∧ ∃ tm, s.templates.get? 1 = some tm ∧
      [(⟨7⟩ : NodeId), ⟨8⟩].length = tm.descriptors.countP (·.isSlot) ∧ [(⟨6⟩ : NodeId), ⟨7⟩, ⟨8⟩].Nodup ∧
      ∃ copy t, Scene.execute (.loadTemplate 1 ⟨6⟩ [⟨7⟩, ⟨8⟩]) s = .ok () t ∧
        s.Loads tm ⟨6⟩ [⟨7⟩, ⟨8⟩] copy t := by
  intro h calls s
  have hp : h.Permits calls := by decide +kernel
  have hm : s ∈ h.moments calls := scene_foldl_apply_mem_moments h calls
  have hcount : (s.templates.get? 1).map (·.descriptors.countP (·.isSlot)) = some 2 := by decide +kernel
  obtain ⟨tm, htm, hcount⟩ := Option.map_eq_some_iff.mp hcount
  have hids : [(⟨6⟩ : NodeId), ⟨7⟩, ⟨8⟩].Nodup := by decide
  exact ⟨hp, hm, tm, htm, hcount.symm, hids,
    loads_moments Document.whole_new (.new 1 1) false hp s hm 1 tm ⟨6⟩ [⟨7⟩, ⟨8⟩] htm hcount.symm hids⟩

/-- The id of a slot that is the root is not bound when the copy has got its own. -/
theorem exists_slot_unbound :
    let h := opened .new (.new 1 1) false
    let calls : List Call := [.saveTemplate 1 [.placeholder]]
    let s := (calls.foldl Call.apply h).scene
    h.Permits calls ∧ s ∈ h.moments calls ∧ ∃ tm, s.templates.get? 1 = some tm ∧
      [(⟨2⟩ : NodeId)].length = tm.descriptors.countP (·.isSlot) ∧ [(⟨1⟩ : NodeId), ⟨2⟩].Nodup ∧
      ¬ ∃ copy t, Scene.execute (.loadTemplate 1 ⟨1⟩ [⟨2⟩]) s = .ok () t ∧
        t.bindings.get? ⟨1⟩ = some copy.1.ref ∧
        ∀ e ∈ [(⟨2⟩ : NodeId)].zip (slotRefs (Forest.labels copy) tm.descriptors),
          t.bindings.get? e.1 = some e.2 := by
  intro h calls s
  have hp : h.Permits calls := by decide +kernel
  have hm : s ∈ h.moments calls := scene_foldl_apply_mem_moments h calls
  have hlist : (s.templates.get? 1).map (·.descriptors) = some [.placeholder] := by decide +kernel
  have hunbound : (match Scene.execute (.loadTemplate 1 ⟨1⟩ [⟨2⟩]) s with
      | .ok _ t => t.bindings.get? ⟨2⟩
      | .error _ _ => none) = none := by decide +kernel
  obtain ⟨tm, htm, hlist⟩ := Option.map_eq_some_iff.mp hlist
  refine ⟨hp, hm, tm, htm, by rw [hlist]; rfl, by decide, ?_⟩
  rintro ⟨copy, t, hrun, -, hslots⟩
  rw [hrun] at hunbound
  have hroot := hslots (⟨2⟩, copy.1.ref) (by rw [hlist]; exact List.mem_cons_self)
  exact absurd (hunbound.symm.trans hroot) (by simp)

end Host

end DomHost
