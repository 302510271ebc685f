import DomHost.Proofs.Host.Moments
import DomHost.Proofs.Scene.Frame
import DomHost.Proofs.Scene.NewNodes

/-!
# Prototypes stay as they are built

The tree of a template is a prototype, which is only ever copied. As long as the template is not defined
anew, nothing that happens in a run touches it, and every copy is a tree of new nodes that looks like it.

* `Scene.Pristine`: a prototype without ids and listeners;
* `Scene.Copied`: a copy of it, with an id for its root;
* `Scene.Sound.ends_loadTemplate`: what copying a template gives;
* `Host.PrototypesKept`: prototypes and copies at scenes that follow each other;
* **`Host.prototypes_moments`**: so it is in every run.
-/

namespace DomHost

namespace Scene

variable {κ : Type} {closed : Prop} {s t : Scene κ} {ts : List (Node × Forest Node)} {r : NodeRef}
  {number : UInt32} {tm : Template}

/-- The prototype of a template is a detached tree, in which no node has an id or a listener. -/
structure Pristine (tm : Template) (tree : Node × Forest Node) (s : Scene κ) : Prop where
  tree? : s.store.tree? tm.root = some tree
  detached : s.store.parent? tm.root = none ∧ tm.root ≠ .root
  unbound : ∀ n ∈ Forest.labels tree, s.bindings.idOf? n.ref = none ∧ ∀ id, s.bindings.get? id ≠ some n.ref
  unheard : ∀ n ∈ Forest.labels tree, s.document.listeners.hasAny n.ref = false

/-- A copy of a tree is there, whose root has an id. -/
structure Copied (id : NodeId) (tree copy : Node × Forest Node) (s t : Scene κ) : Prop where
  bound : t.bindings.get? id = some copy.1.ref
  tree? : t.store.tree? copy.1.ref = some copy
  /-- The nodes are new, so they are none of the tree that is copied, nor of an earlier copy. -/
  fresh : ∀ n ∈ Forest.labels copy, s.store.get? n.ref = none
  /-- The nodes have the same data in the same places. -/
  data : copy.1.data = tree.1.data ∧ copy.2.map (·.data) = tree.2.map (·.data)

namespace Sound

/-- **The tree of a template is pristine.** -/
theorem exists_pristine (h : s.Sound closed ts) (ht : s.templates.get? number = some tm) :
    ∃ u ∈ ts, u.1.ref = tm.root ∧ s.Pristine tm u := by
  obtain ⟨u, hu, hur, -⟩ := h.exists_tree ht
  have htop := h.store.tops u hu
  have hroot : u.1 ∈ s.store.forest.roots := by
    rw [Forest.roots_eq_map_tops]
    exact List.mem_map_of_mem htop
  have hquiet : ∀ n ∈ Forest.labels u, n.ref ∉ s.held := fun n hn hm =>
    h.quiet n.ref hm (Store.mem_refsOf.mpr ⟨u, hu, n, hn, rfl⟩)
  refine ⟨u, hu, hur, ?_, ⟨?_, ?_⟩, fun n hn => ⟨?_, fun id hid => ?_⟩, fun n hn => ?_⟩
  · rw [← hur]
    exact h.store.wellFormed.tree?_eq_some (Forest.mem_trees_of_mem_tops htop)
  · rw [← hur]
    exact h.store.wellFormed.parent?_root hroot
  · rintro he
    exact h.outside (Store.mem_refsOf.mpr ⟨u, hu, u.1, List.mem_cons_self, hur.trans he⟩)
  · rw [h.bindings.idOf?_eq_none_iff]
    exact fun hm => hquiet n hn (List.mem_append_left _ hm)
  · exact hquiet n hn (List.mem_append_left _ (Bindings.mem_nodes_of_get? hid))
  · rw [← Bool.not_eq_true, Registry.hasAny_iff]
    exact fun hm => hquiet n hn (List.mem_append_right _ hm)

/-- **A template that stays keeps its tree.** -/
theorem tree?_eq (h : s.Sound closed ts) (hi : Inherits closed ts s t)
    (hs : s.templates.get? number = some tm) (ht : t.templates.get? number = some tm) :
    t.store.tree? tm.root = s.store.tree? tm.root := by
  obtain ⟨ts', h', hfrom⟩ := hi
  obtain ⟨u, hu, hur, hpu⟩ := h.exists_pristine hs
  obtain ⟨v, hv, hvr, hpv⟩ := h'.exists_pristine ht
  have hlive : s.store.Live v.1.ref := by
    rw [hvr]
    exact Store.live_of_tree? hpu.tree?
  have hvs := h.store.tops v ((hfrom v hv).resolve_right (not_not_intro hlive))
  rw [hpv.tree?, ← hvr, h.store.wellFormed.tree?_eq_some (Forest.mem_trees_of_mem_tops hvs)]

end Sound

/-! ## Copies -/

/-- **A copy of a tree is a new top-level tree with the same data.** -/
theorem ends_cloneSubtree_copied {st : Store} (h : st.WellFormed) (r : NodeRef) :
    Ends (Store.cloneSubtree r) st
      (fun c st' => ∃ tree copy, st.tree? r = some tree ∧ copy ∈ st'.forest.tops ∧ copy.1.ref = c ∧
        (∀ n ∈ Forest.labels copy, ¬ st.Live n.ref) ∧ copy.1.data = tree.1.data ∧
        copy.2.map (·.data) = tree.2.map (·.data))
      fun _ => True := by
  unfold Store.cloneSubtree
  refine Ends.get_bind ?_
  split
  · exact Ends.throw trivial
  · rename_i n k ht
    refine Ends.ite (fun _ => Ends.throw_bind trivial) fun _ => Ends.modifyGet ?_
    rw [Store.copy_eq_plant]
    have hn := (Store.hold_plant h.cells n.data (k.map (·.data))).nodup
    rw [Store.refs_plant, ← List.cons_append] at hn
    refine ⟨(n, k), (⟨st.cells.draw.1, n.data⟩, ((k.map (·.data)).rename Store.embody st.cells.draw.2).1),
      ht, List.mem_cons_self, rfl, fun m hm hl => ?_, rfl, Store.map_data_rename _ _⟩
    exact (List.nodup_append.mp hn).2.2 m.ref (List.mem_map_of_mem hm) m.ref hl rfl

theorem ends_tieSlots_store (tm : Template) (root : NodeRef) (slots : List (List Nat × NodeId)) :
    Ends (Scene.tieSlots tm root slots) s (fun _ t => t.store = s.store) fun t => t.store = s.store := by
  induction slots generalizing s with
  | nil => exact Ends.pure rfl
  | cons slot rest ih =>
    obtain ⟨path, id⟩ := slot
    unfold Scene.tieSlots
    refine Ends.get_bind ?_
    split
    · exact (Ends.modify (Q := fun _ t => t.store = s.store) rfl).bind fun _ t ht =>
        ih.mono (fun _ _ hu => hu.trans ht) fun _ hu => hu.trans ht
    · exact Ends.throw_bind rfl

namespace Sound

/-- A tree stays when an id moves to its top. -/
theorem ends_bind_top (h : s.Sound closed ts) (id : NodeId) {tree : Node × Forest Node}
    (htop : tree ∈ s.store.forest.tops) (hr : tree.1.ref ∉ Store.refsOf ts) :
    Ends (Scene.bind id tree.1.ref) s
      (fun _ t => t.bindings.get? id = some tree.1.ref ∧ tree ∈ t.store.forest.tops) fun _ => False := by
  have hw := h.store.wellFormed
  have hl : s.store.Live tree.1.ref :=
    List.mem_map_of_mem (Forest.mem_toList_of_mem_labels (Forest.mem_trees_of_mem_tops htop) List.mem_cons_self)
  refine (h.ends_bind id hl hr).mono (fun _ t ht => ⟨?_, ?_⟩) fun _ he => he
  · rw [ht.1, h.bindings.get?_bind_self]
  · rw [ht.2]
    cases hy : s.yielded id tree.1.ref with
    | none => exact htop
    | some old =>
      -- the tree that is given up has another top
      obtain ⟨-, hgive⟩ := Option.filter_eq_some_iff.mp hy
      rw [Bool.and_eq_true, bne_iff_ne] at hgive
      obtain ⟨hne, horphan⟩ := hgive
      obtain ⟨-, hold, hparent, -⟩ := (isOrphan_iff (h.tie id hl hr).store.wellFormed).mp horphan
      refine Forest.mem_tops_prune htop fun n hn hin => hne ?_
      rw [Store.is_iff] at hin
      have hbelow : old ∈ s.store.descendants tree.1.ref := by
        rw [Store.descendants_of_tree? (hw.tree?_eq_some (Forest.mem_trees_of_mem_tops htop)), ← hin]
        exact List.mem_map_of_mem hn
      have hup := hw.mem_descendants_iff.mp hbelow
      have halone : s.store.ancestors old = [old] := hw.ancestors_of_parent?_none hold hparent
      rw [halone, List.mem_singleton] at hup
      exact hup.symm

/-- A copy that is not bound yet. -/
theorem ends_instantiate_copied (h : s.Sound closed ts) (number : UInt32) (slots : List NodeId) :
    Ends (Scene.instantiate number slots) s
      (fun root t => ∃ tm tree copy, s.templates.get? number = some tm ∧
        s.store.tree? tm.root = some tree ∧ copy ∈ t.store.forest.tops ∧ copy.1.ref = root ∧
        (∀ n ∈ Forest.labels copy, ¬ s.store.Live n.ref) ∧ copy.1.data = tree.1.data ∧
        copy.2.map (·.data) = tree.2.map (·.data))
      fun _ => True := by
  unfold Scene.instantiate
  refine Ends.get_bind ?_
  split
  · exact Ends.throw trivial
  rename_i tm htm
  refine Ends.ite (fun _ => Ends.throw_bind trivial) fun _ => ?_
  have hclone := ends_onStore s.over_self (ends_cloneSubtree_copied h.store.wellFormed tm.root)
  refine (hclone.mono (fun _ _ ho => ho) fun _ _ => trivial).bind fun root t ho => ?_
  obtain ⟨tree, copy, htree, htop, hroot⟩ := ho.document.store
  refine ((ends_tieSlots_store tm root _).mono (fun _ _ hu => hu) fun _ _ => trivial).bind ?_
  intro _ u hu
  exact Ends.pure ⟨tm, tree, copy, htm, htree, by rw [hu]; exact htop, hroot⟩

theorem ends_loadTemplate_copied (h : s.Sound closed ts) (number : UInt32) (id : NodeId)
    (slots : List NodeId) :
    Ends (Scene.execute (.loadTemplate number id slots)) s
      (fun _ t => ∃ tm tree copy, s.templates.get? number = some tm ∧
        s.store.tree? tm.root = some tree ∧ s.Copied id tree copy t)
      fun _ => True := by
  have hcopy := (h.ends_instantiate_copied number slots).and (h.instantiate number slots)
  refine (hcopy.mono (fun _ _ ht => ht) fun _ _ => trivial).bind ?_
  rintro _ t ⟨⟨tm, tree, copy, htm, htree, htop, rfl, hnew, hdata⟩, ht, -, hr⟩
  have hbind := (ht.ends_bind_top id htop hr).and (ht.bind id ?_ hr)
  · refine hbind.mono (fun _ u hu => ⟨tm, tree, copy, htm, htree, hu.1.1, ?_, fun n hn => ?_, hdata⟩)
      fun _ _ => trivial
    · exact hu.2.store.wellFormed.tree?_eq_some (Forest.mem_trees_of_mem_tops hu.1.2)
    · rw [← Option.not_isSome_iff_eq_none, Store.get?_isSome_iff]
      exact hnew n hn
  · exact List.mem_map_of_mem
      (Forest.mem_toList_of_mem_labels (Forest.mem_trees_of_mem_tops htop) List.mem_cons_self)

/-- **What copying a template gives: a new tree like the prototype, which stays as it is.** -/
theorem ends_loadTemplate (h : s.Sound closed ts) (number : UInt32) (id : NodeId) (slots : List NodeId) :
    Ends (Scene.execute (.loadTemplate number id slots)) s
      (fun _ t => ∃ tm tree copy, s.templates.get? number = some tm ∧ s.Pristine tm tree ∧
        t.Pristine tm tree ∧ s.Copied id tree copy t)
      fun _ => True := by
  have hkeep := (h.execute (.loadTemplate number id slots)).and
    (templates_execute (fun _ _ he => by cases he) s)
  refine ((h.ends_loadTemplate_copied number id slots).and hkeep).mono (fun _ t ht => ?_) fun _ _ => trivial
  obtain ⟨⟨tm, tree, copy, htm, htree, hcopied⟩, hi, htemplates⟩ := ht
  have htm' : t.templates.get? number = some tm := by rw [htemplates, htm]
  have hsame := h.tree?_eq hi htm htm'
  obtain ⟨u, -, -, hu⟩ := h.exists_pristine htm
  obtain ⟨ts', ht', -⟩ := hi
  obtain ⟨v, -, -, hv⟩ := ht'.exists_pristine htm'
  obtain rfl : u = tree := Option.some.inj (hu.tree?.symm.trans htree)
  obtain rfl : v = u := Option.some.inj (hv.tree?.symm.trans (hsame.trans hu.tree?))
  exact ⟨tm, v, copy, htm, hu, hv, hcopied⟩

end Sound

end Scene

namespace Host

variable {d : Document} {calls : List Call}

/-- **At the moments of a run that follow each other a template keeps its tree.** -/
theorem isChain_tree? (hd : d.Whole) (buffer : SharedBuffer) (delegates : Bool)
    (hp : (opened d buffer delegates).Permits calls) :
    ((opened d buffer delegates).moments calls).IsChain fun s t => ∀ number tm,
      s.templates.get? number = some tm → t.templates.get? number = some tm →
        t.store.tree? tm.root = s.store.tree? tm.root := by
  have hsound : (opened d buffer delegates).scene.IsSound False := ⟨[], Scene.sound_of_whole hd⟩
  refine isChain_moments (fun s i hs => ?_) (fun h c hs hc hpass => ?_) (fun _ _ _ _ _ _ => rfl) hsound hp
  · obtain ⟨ts, hs⟩ := hs
    exact (hs.execute i).mono (fun _ _ hi _ _ => hs.tree?_eq hi) fun _ hi _ _ => hs.tree?_eq hi
  · obtain ⟨ts, hs⟩ := hs
    have hrun := Call.ends_run_apart hs hc hpass
    exact Call.apply_of_ends (P := fun h' => ∀ number tm, h.scene.templates.get? number = some tm →
      h'.scene.templates.get? number = some tm →
        h'.scene.store.tree? tm.root = h.scene.store.tree? tm.root)
      (hrun.mono (fun _ _ hi _ _ => hs.tree?_eq hi) fun _ hi _ _ => hs.tree?_eq hi)

/-- What holds of prototypes and copies at scenes that follow each other. -/
structure PrototypesKept (scenes : List (Scene Reaction)) : Prop where
  /-- As long as a template is not defined anew, its tree is pristine, and always the same. -/
  pristine : ∀ span, span <:+: scenes → ∀ number tm, (∀ s ∈ span, s.templates.get? number = some tm) →
    ∃ tree, ∀ s ∈ span, s.Pristine tm tree
  /-- Whoever copies a template gets a tree of new nodes that looks like the tree of the template. -/
  copied : ∀ s ∈ scenes, ∀ number id slots t, Scene.execute (.loadTemplate number id slots) s = .ok () t →
    ∃ tm tree copy, s.templates.get? number = some tm ∧ s.Pristine tm tree ∧ t.Pristine tm tree ∧
      s.Copied id tree copy t

/-- **In every run the trees of templates are kept, and copies are new trees like them.** -/
theorem prototypes_moments (hd : d.Whole) (buffer : SharedBuffer) (delegates : Bool)
    (hp : (opened d buffer delegates).Permits calls) :
    PrototypesKept ((opened d buffer delegates).moments calls) := by
  have hsound : ∀ s ∈ (opened d buffer delegates).moments calls, s.IsSound False := fun s hm =>
    isSound_of_mem_moments ⟨[], Scene.sound_of_whole hd⟩ hp hm
  refine ⟨fun span hspan number tm htm => ?_, fun s hm number id slots t ht => ?_⟩
  · have hchain := List.IsChain.infix (isChain_tree? hd buffer delegates hp) hspan
    have hsound : ∀ s ∈ span, s.IsSound False := fun s hs => hsound s (hspan.subset hs)
    clear hspan
    -- the tree of the first scene is that of the next, and so on
    induction span with
    | nil => exact ⟨(⟨.root, .document⟩, .nil), by simp⟩
    | cons s rest ih =>
      obtain ⟨hs, hrest⟩ := List.forall_mem_cons.mp htm
      obtain ⟨⟨ts, hfirst⟩, hlater⟩ := List.forall_mem_cons.mp hsound
      obtain ⟨tree, -, -, hpristine⟩ := hfirst.exists_pristine hs
      refine ⟨tree, List.forall_mem_cons.mpr ⟨hpristine, ?_⟩⟩
      cases rest with
      | nil => simp
      | cons t rest =>
        obtain ⟨tree', hall⟩ := ih hrest hchain.tail hlater
        have hsame := hchain.rel number tm hs (hrest t List.mem_cons_self)
        have hnext := (hall t List.mem_cons_self).tree?
        rw [hsame, hpristine.tree?] at hnext
        exact Option.some.inj hnext ▸ hall
  · obtain ⟨ts, hs⟩ := hsound s hm
    have hload := hs.ends_loadTemplate number id slots
    unfold Ends at hload
    rw [ht] at hload
    exact hload

/-- A template that is copied, and its tree before and after. -/
theorem exists_prototypes_moments : ∃ calls s t tm, (opened .new (.new 1 1) false).Permits calls ∧
    [s, t] <:+: (opened .new (.new 1 1) false).moments calls ∧
    s.templates.get? 1 = some tm ∧ t.templates.get? 1 = some tm ∧
    Scene.execute (.loadTemplate 1 ⟨6⟩ []) s = .ok () t ∧
    PrototypesKept ((opened .new (.new 1 1) false).moments calls) := by
  let edits := Instruction.encodeAll [.loadTemplate 1 ⟨6⟩ []]
  let before : List Call :=
    [.saveTemplate 1 [.text "x"], .changeMemory { bytes := edits.toArray, maxPages := 1 }]
  have hp : (opened .new (.new 1 1) false).Permits (before ++ [.applyEdits 0 edits.length]) := by
    decide +kernel
  obtain ⟨h, hlast, htm, hpass, t, ht⟩ : ∃ h : Host, h.moments [.applyEdits 0 edits.length] <:+
        (opened .new (.new 1 1) false).moments (before ++ [.applyEdits 0 edits.length]) ∧
      (h.scene.templates.get? 1).isSome = true ∧
      (Cursor.new h.memory.buffer 0 edits.length).decoded.1 = [.loadTemplate 1 ⟨6⟩ []] ∧
      ∃ t, Scene.execute (.loadTemplate 1 ⟨6⟩ []) h.scene = .ok () t := by
    refine ⟨_, moments_suffix _ _ _, by decide +kernel, by decide +kernel, ?_⟩
    have hok : (match Scene.execute (.loadTemplate 1 ⟨6⟩ [])
        (before.foldl Call.apply (opened .new (.new 1 1) false)).scene with
      | .ok _ _ => true
      | .error _ _ => false) = true := by decide +kernel
    split at hok
    · exact ⟨_, ‹_›⟩
    · exact absurd hok (by simp)
  obtain ⟨tm, htm⟩ := Option.isSome_iff_exists.mp htm
  refine ⟨_, h.scene, t, tm, hp, ?_, htm, ?_, ht,
    prototypes_moments Document.whole_new (.new 1 1) false hp⟩
  · refine List.IsInfix.trans ?_ hlast.isInfix
    simp only [moments, Call.along, hpass, Scene.along, ht]
    exact (List.prefix_append [h.scene, t] _).isInfix
  · have htemplates := Scene.templates_execute (i := .loadTemplate 1 ⟨6⟩ []) (fun _ _ he => by cases he) h.scene
    unfold Ends at htemplates
    rw [ht] at htemplates
    rw [htemplates, htm]

end Host

end DomHost
