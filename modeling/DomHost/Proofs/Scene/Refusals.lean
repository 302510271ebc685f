import DomHost.Proofs.Cautious
import DomHost.Proofs.Scene.Gathering
import DomHost.Proofs.Scene.Sparing

/-!
# What instructions check first

What an instruction is made of is refused before its first effect. This leaves out the instructions that are made
of several steps, each of which may be refused.

* `Instruction.isStepwise`: the instructions that are made of several steps;
* `Scene.cautious_newElement`, **`Scene.Sound.cautious_bind`**: new nodes and their ids;
* **`Scene.Sound.cautious_assign`**: properties, assigned markup included;
* `Scene.Sound.succeeds_releaseSubtree`, **`Scene.Sound.cautious_replace`**: nodes that give way;
* `Scene.cautious_listen`, `Scene.cautious_unlisten`: listeners.
-/

namespace DomHost

/-- Is the instruction made of several steps, each of which may be refused? -/
def Instruction.isStepwise : Instruction → Bool
  | appendChildren _ _ | insertBefore _ _ | insertAfter _ _ | saveTemplate _ _ => true
  | _ => false

/-! ## Data of nodes -/

namespace Store

/-- New trees leave the nodes as they are that were there. -/
theorem ends_plantEach_subset (s : Store) (f : Forest NodeData) :
    Ends (plantEach (fun _ => pure ()) f) s (fun _ t => s.forest.toList ⊆ t.forest.toList) fun _ => False := by
  induction f generalizing s with
  | nil => exact Ends.pure (List.Subset.refl _)
  | node d c n _ ihn =>
    have hplant : s.forest.toList ⊆ (s.plant d c).2.forest.toList := by
      rw [plant, Forest.toList_node]
      exact List.Subset.trans (List.subset_append_right _ _) (List.subset_cons_self _ _)
    unfold plantEach
    refine (Ends.modifyGet (f := fun s : Store => s.plant d c)
      (Q := fun _ t => s.forest.toList ⊆ t.forest.toList) hplant).bind fun r t ht => ?_
    refine (Ends.pure (Q := fun _ u => u = t) rfl).bind ?_
    rintro _ t rfl
    exact (ihn t).bind fun _ _ hu => Ends.pure (List.Subset.trans ht hu)

end Store

namespace Document

/-- Markup is refused before any node is there. -/
theorem ends_addFragment_cautious (d : Document) (r : NodeRef) (html : String) :
    Ends (addFragment r html) d
      (fun _ d' => (∃ e, d.store.get? r = some (.element e)) ∧
        d.store.forest.toList ⊆ d'.store.forest.toList) (· = d) := by
  unfold addFragment
  refine (ends_onStore_check (Store.ends_requireElement d.store r)).bind ?_
  rintro e d ⟨rfl, he⟩
  refine (ends_onStore_with (d.store.ends_plantEach_subset _)).mono ?_ fun _ ⟨_, _, hf⟩ => hf.elim
  rintro _ _ ⟨s, rfl, hs⟩
  exact ⟨⟨e, he⟩, hs⟩

/-- Nodes that may be put into an element without children get there. -/
theorem succeeds_replaceChildren {d : Document} {r : NodeRef} {e : Element} {rs : List NodeRef}
    (h : d.store.WellFormed) (hc : d.store.children r = []) (he : d.store.get? r = some (.element e))
    (hadm : ∀ c ∈ rs, d.store.Admits r c) : Succeeds (replaceChildren r rs) d := by
  have hrequire : onStore (Store.require r) d = .ok (.element e) d := onStore_of_ok (Store.require_of_get? he)
  have hclear : onStore (Store.clearChildren r) d = .ok () d := by
    rw [onStore_of_ok (s := d.store.scatter r) rfl, h.scatter_eq_self hc]
  unfold replaceChildren
  refine (Ends.of_eq (Q := fun a t => t = d ∧ a = .element e) hrequire ⟨rfl, rfl⟩).bind ?_
  rintro _ d ⟨rfl, rfl⟩
  refine Ends.ite (fun _ => ?_) fun hn => absurd rfl hn
  refine (Ends.of_eq (Q := fun _ t => t = d) hclear rfl).bind ?_
  rintro _ d rfl
  have hloop := Store.ends_forM_gathers (g := Document.store) (t := d) (p := r)
    (f := fun c => onStore (Store.appendChild r c)) rs none
    (fun c _ t ht _ => (ends_onStore_with (ht.ends_insertBefore_anchor r c (by simp) (by simp))).mono
      (fun _ _ ⟨_, hd, ho⟩ => hd ▸ ho) fun _ ⟨_, _, ho⟩ => ho.2)
    h (List.append_nil _).symm rfl (by simp)
  exact hloop.mono (fun _ _ _ => trivial) fun _ ⟨c, hm, hnot⟩ => hnot (hadm c hm)

end Document

namespace Scene

variable {κ : Type} {closed : Prop} {s t : Scene κ} {ts : List (Node × Forest Node)} {r : NodeRef} {id : NodeId}

theorem cautious_onDocument {α : Type} {x : DocumentM α} (h : Cautious x s.document) :
    Cautious (onDocument x) s :=
  (ends_onDocument_with h).mono (fun _ _ _ => trivial) fun _ ⟨_, ht, hd⟩ => by rw [ht, hd]

theorem cautious_onStore {α : Type} {x : StoreM α} (h : Cautious x s.store) :
    Cautious (onDocument (Document.onStore x)) s := cautious_onDocument (Document.cautious_onStore h)

/-! ## New nodes and their ids -/

theorem cautious_newElement (s : Scene κ) (tag : String) (ns : Option String) :
    Cautious (newElement tag ns) s := by
  unfold newElement
  cases ns with
  | some ns =>
    exact cautious_onStore (.check (ends_liftResult_same _ _) fun _ _ => Ends.modifyGet trivial)
  | none =>
    refine .check (P := fun _ => True) ?_ fun _ _ => cautious_onStore (Ends.modifyGet trivial)
    refine (ends_onDocument_with (ends_liftResult_same _ s.document)).mono ?_ ?_
    · rintro _ _ ⟨_, rfl, rfl, -⟩
      exact ⟨rfl, trivial⟩
    · rintro _ ⟨_, rfl, rfl⟩
      rfl

theorem cautious_writeAttribute (r : NodeRef) (name value : String) (ns : Option String) (s : Scene κ) :
    Cautious (writeAttribute r name value ns) s := by
  cases ns with
  | some ns => exact cautious_onStore (Store.cautious_setAttributeNs r ns name value _)
  | none => exact cautious_onStore (Store.cautious_setAttribute r name value _)

/-- New nodes may be put into an element that has lost its children. -/
theorem Drops.admits {u : Scene κ} {rs : List NodeRef} {e : Element} (hadd : s.store.Adds rs t.store)
    (hd : t.Drops (fun x => r ∈ t.store.ancestors x ∧ x ≠ r) u) (hu : u.store.WellFormed) (hl : s.store.Live r)
    (he : u.store.get? r = some (.element e)) : ∀ c ∈ rs, u.store.Admits r c := by
  intro c hc
  obtain ⟨hnew, hlc, hp⟩ := hadd.fresh c hc
  have hkept : ¬ (r ∈ t.store.ancestors c ∧ c ≠ r) := fun hgone => by
    rw [hadd.after.ancestors_of_parent?_none hlc hp, List.mem_singleton] at hgone
    exact hgone.2 hgone.1.symm
  obtain ⟨data, hdata⟩ := Option.isSome_iff_exists.mp (Store.get?_isSome_iff.mpr ((hd.live c).mpr ⟨hlc, hkept⟩))
  refine ⟨⟨⟨_, he, rfl⟩, ⟨data, hdata, ?_⟩, fun hm => hnew ?_⟩, fun hdoc => by rw [he] at hdoc; cases hdoc⟩
  · by_contra hdoc
    have hroot : c = .root := hu.onlyDocument ⟨c, data⟩ (hu.get?_eq_some_iff.mp hdata) (by simpa using hdoc)
    exact hnew (hroot ▸ hadd.before.live_root)
  · rw [hd.ancestors r fun hgone => hgone.2 rfl, hadd.ancestors r hl] at hm
    exact Store.live_of_mem_ancestors hm

namespace Sound

/-- **A node is refused before an id is tied to it.** -/
theorem cautious_bind {x : SceneM κ NodeRef} (hx : Cautious x s)
    (hnew : Ends x s (fun r t => t.Sound closed ts ∧ t.store.Live r ∧ r ∉ Store.refsOf ts) (Sound closed ts))
    (id : NodeId) : Cautious (x >>= Scene.bind id) s := by
  refine Cautious.surely ((hx.and hnew).mono (fun _ _ ht => ht.2) fun _ he => he.1) fun r t ht => ?_
  exact (ht.1.ends_bind id ht.2.1 ht.2.2).mono (fun _ _ _ => trivial) fun _ he => he

/-! ## Assigned content -/

/-- The children of a node are freed, and the nodes that are left are as they were. -/
theorem ends_releaseChildren_subset (h : s.Sound closed ts) (hr : r ∉ Store.refsOf ts) :
    Ends (Scene.releaseChildren r) s
      (fun _ t => t.Sound closed ts ∧ s.Drops (fun x => r ∈ s.store.ancestors x ∧ x ≠ r) t ∧
        t.store.forest.toList ⊆ s.store.forest.toList) fun _ => False := by
  have hsubset : Ends (Scene.releaseChildren r) s
      (fun _ t => t.Sound closed ts ∧ t.store.forest.toList ⊆ s.store.forest.toList)
      fun t => t.Sound closed ts ∧ t.store.forest.toList ⊆ s.store.forest.toList := by
    refine Ends.get_bind (Ends.forM (fun c hc t ht => ?_) ⟨h, List.Subset.refl _⟩)
    have hout := h.store.child_notMem hr hc
    refine ((ht.1.ends_releaseSubtree c).and (ht.1.releaseSubtree hout)).mono (fun _ u hu => ⟨hu.2, ?_⟩)
      fun u hu => ⟨hu.2, ?_⟩
    · rw [hu.1.2.2.1]
      exact List.Subset.trans (Forest.toList_prune_subset _ _) ht.2
    · rw [hu.1.2.1]
      exact ht.2
  exact ((h.ends_releaseChildren hr).and hsubset).mono (fun _ _ ht => ⟨ht.1.1, ht.1.2, ht.2.2⟩) fun _ he => he.1

/-- **A property is assigned after all checks**, and what gives way to it is freed without a fault. -/
theorem cautious_assign (h : s.Sound closed ts) (hl : s.store.Live r) (hr : r ∉ Store.refsOf ts)
    (property : Property) (value : String) : Cautious (Scene.assign r property value) s := by
  cases property with
  | className => exact cautious_onDocument (Document.cautious_setProperty hl _ _)
  | value => exact cautious_onDocument (Document.cautious_setProperty hl _ _)
  | checked => exact cautious_onDocument (Document.cautious_setProperty hl _ _)
  | textContent =>
    refine Cautious.surely ((h.ends_releaseChildren hr).mono (fun _ _ ht => ht) fun _ => False.elim) ?_
    rintro _ t ⟨-, hd⟩
    have hlive : t.store.Live r := (hd.live r).mpr ⟨hl, fun hn => hn.2 rfl⟩
    exact (ends_onStore t.over_self (Store.succeeds_setTextContent hlive value)).mono (fun _ _ _ => trivial)
      fun _ ho => ho.document.store
  | innerHtml =>
    have hw := h.store.wellFormed
    have hchecked := ends_onDocument_with (s.document.ends_addFragment_cautious r value)
    have hadds := ends_onDocument s.over_self (Document.ends_addFragment_adds hw r value)
    have hsound := ends_onDocument h.overSelf (Document.ends_addFragment ⟨rfl, h.store⟩ r value)
    refine Cautious.surely (((hchecked.and hadds).and hsound).mono (fun _ _ ht => ht) ?_) ?_
    · rintro _ ⟨⟨⟨_, rfl, rfl⟩, -⟩, -⟩
      rfl
    rintro rs s' ⟨⟨⟨d, rfl, ⟨e, he⟩, hsub⟩, hadd⟩, ho⟩
    have hs := h.of_over ⟨ho.document.mono fun _ hp => hp.1, ho.bindings, ho.templates, ho.callbacks⟩
    refine (hs.ends_releaseChildren_subset hr).bind fun _ t ht => ?_
    obtain ⟨ht, hd, hsub'⟩ := ht
    have hlive : t.store.Live r :=
      (hd.live r).mpr ⟨hadd.document.store.live r hl, fun hn => hn.2 rfl⟩
    -- the element is the node that it was before the markup came
    have hget : t.store.get? r = some (.element e) := by
      obtain ⟨n, hn, href⟩ := List.mem_map.mp hlive
      have hn' := hs.store.wellFormed.node_eq (hsub' hn) (hsub (hw.get?_eq_some_iff.mp he)) href
      rw [ht.store.wellFormed.get?_eq_some_iff]
      exact hn' ▸ hn
    have hfill := Document.succeeds_replaceChildren ht.store.wellFormed
      (hd.children_eq_nil ht.store.wellFormed) hget (hd.admits hadd.document.store ht.store.wellFormed hl hget)
    exact (ends_onDocument_with hfill).mono (fun _ _ _ => trivial) fun _ ⟨_, _, hf⟩ => hf

/-! ## Nodes that give way -/

/-- A live tree other than that of the document is freed. -/
theorem succeeds_releaseSubtree (h : s.Sound closed ts) (hl : s.store.Live r) (hr : r ≠ .root) :
    Succeeds (Scene.releaseSubtree r) s :=
  (h.ends_releaseSubtree r).mono (fun _ _ _ => trivial) fun _ he => he.1 ⟨hl, hr⟩

/-- **Nodes that come in the place of another are refused before that one gives way.** -/
theorem cautious_replace (h : s.Sound closed ts) (hl : s.store.Live r) (hr : r ∉ Store.refsOf ts)
    {nodes : List NodeRef} (hn : ∀ n ∈ nodes, n ∉ Store.refsOf ts) : Cautious (Scene.replace r nodes) s := by
  have hw := h.store.wellFormed
  have hsound := h.onStore fun _ _ hg => hg.replaceWith hr hn
  unfold Scene.replace
  refine Ends.get_bind ?_
  cases hp : s.store.parent? r with
  | none =>
    refine Cautious.surely (R := fun _ _ => True) ?_ fun _ _ _ => Ends.pure trivial
    exact cautious_onStore (Succeeds.of_ok (Store.replaceWith_of_detached hl hp nodes)).cautious
  | some p =>
    obtain ⟨front, back, hc⟩ := List.append_of_mem (hw.parent?_eq_some_iff.mp hp)
    have hplace := ends_onDocument_with (Document.ends_onStore_with (hw.ends_replaceWith_supplants nodes hc))
    refine Cautious.surely ((hplace.and hsound).mono (fun _ _ ht => ht) ?_) ?_
    · rintro _ ⟨⟨_, rfl, _, rfl, -, rfl⟩, -⟩
      rfl
    rintro _ t ⟨⟨d, rfl, st, rfl, -, hsup⟩, ht⟩
    refine Ends.ite (fun hgive => ?_) fun _ => Ends.pure trivial
    exact ht.succeeds_releaseSubtree (hsup.detached (by simpa using hgive)).1 (hw.ne_root_of_parent? hp)

end Sound

/-! ## Listeners -/

theorem exists_attach {t : CallbackTable κ} {c : CallbackId} (h : t.checkAttachable c = .ok ()) :
    ∃ a, t.attach c = .ok a := by
  unfold CallbackTable.checkAttachable at h
  unfold CallbackTable.attach
  cases hlive : t.live? c with
  | some handle =>
    rw [hlive] at h
    by_cases hd : handle.doomed = true
    · simp [hd] at h
    · exact ⟨_, by simp only [hd]; rfl⟩
  | none =>
    rw [hlive] at h
    cases hpending : t.pending? c with
    | some closure => exact ⟨_, rfl⟩
    | none => simp [hpending] at h

/-- **A listener is refused before it is added.** -/
theorem cautious_listen (r : NodeRef) (name : String) (c : CallbackId) (capture : Bool) (s : Scene κ) :
    Cautious (listen r name c capture) s := by
  unfold listen
  refine Ends.get_bind ?_
  split
  · rename_i hc
    obtain ⟨⟨k, table⟩, hattach⟩ := exists_attach hc
    have hadd := ends_onDocument_with
      (Document.ends_addListener s.document r ⟨name, c.handler, { capture }⟩)
    refine Cautious.surely (hadd.mono (fun _ _ ht => ht) fun _ ⟨_, ht, hd⟩ => by rw [ht, hd]) ?_
    rintro added _ ⟨d, rfl, -⟩
    refine Ends.ite (fun _ => ?_) fun _ => Ends.pure trivial
    unfold attach
    refine Ends.get_bind ?_
    simp only [hattach]
    exact Ends.modify trivial
  · exact Ends.throw_bind rfl

/-- A listener is refused before it is removed. -/
theorem cautious_unlisten (r : NodeRef) (name : String) (c : CallbackId) (capture : Bool) (s : Scene κ) :
    Cautious (unlisten r name c capture) s := by
  unfold unlisten
  have hremove := ends_onDocument_with (Document.ends_removeListener s.document r name c.handler capture)
  refine Cautious.surely (hremove.mono (fun _ _ ht => ht) fun _ ⟨_, ht, hd⟩ => by rw [ht, hd]) ?_
  rintro removed _ ⟨d, rfl, -⟩
  refine Ends.ite (fun _ => Ends.get_bind ?_) fun _ => Ends.pure trivial
  split
  · exact Ends.modify trivial
  · exact Ends.pure trivial

end Scene

end DomHost
