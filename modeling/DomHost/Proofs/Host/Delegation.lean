import DomHost.Host.Delegation
import DomHost.Proofs.Keeps
import DomHost.Proofs.Scene.Execute

/-!
# Catching events keeps scenes sound

Ids are tied to the nodes that a host is started with, and listeners for the compute module come and go
on them. The scene stays sound as long as these nodes are in none of its templates.

* `Scene.OutsideTemplates`: being in none of the templates;
* `Scene.Placed`: a sound scene and a live node that is in none of its templates;
* `Host.ends_onScene`: an operation on the scene, seen from the host;
* **`Host.ends_start`**: starting a host;
* `Host.Lenient`, **`Host.keeps_start`**: what starting leaves alone.
-/

namespace DomHost

/-! ## Nodes that may get an id -/

namespace Scene

variable {κ : Type} {closed : Prop} {s : Scene κ} {ts : List (Node × Forest Node)} {r : NodeRef}

/-- Is a node in none of the templates? -/
def OutsideTemplates (s : Scene κ) (r : NodeRef) : Prop :=
  ∀ e ∈ s.templates.entries, s.store.isInclusiveAncestor e.2.root r = false

instance (s : Scene κ) (r : NodeRef) : Decidable (s.OutsideTemplates r) :=
  inferInstanceAs (Decidable (∀ e ∈ s.templates.entries, s.store.isInclusiveAncestor e.2.root r = false))

theorem Sound.notMem_refsOf (h : s.Sound closed ts) (hr : s.OutsideTemplates r) : r ∉ Store.refsOf ts := by
  intro hm
  obtain ⟨t, ht, n, hn, rfl⟩ := Store.mem_refsOf.mp hm
  have hroot : t.1.ref ∈ s.templates.entries.map (·.2.root) := by
    rw [h.templates]
    exact List.mem_map_of_mem ht
  obtain ⟨e, he, hroot⟩ := List.mem_map.mp hroot
  have hdesc : n.ref ∈ s.store.descendants t.1.ref := by
    have htree := h.store.wellFormed.tree?_eq_some (Forest.mem_trees_of_mem_tops (h.store.tops t ht))
    rw [Store.descendants_of_tree? htree]
    exact List.mem_map_of_mem hn
  have hanc : s.store.isInclusiveAncestor e.2.root n.ref = true := by
    rw [hroot, Store.isInclusiveAncestor, List.contains_iff_mem]
    exact h.store.wellFormed.mem_ancestors hdesc
  rw [hr e he] at hanc
  exact absurd hanc (by decide)

/-- A sound scene, and a live node in none of its templates. -/
structure Placed (closed : Prop) (ts : List (Node × Forest Node)) (r : NodeRef) (s : Scene κ) : Prop where
  sound : s.Sound closed ts
  live : s.store.Live r
  outside : r ∉ Store.refsOf ts

theorem ends_require (h : s.Sound closed ts) (hr : r ∉ Store.refsOf ts) :
    Ends (onDocument (Document.onStore (Store.require r))) s (fun _ => Placed closed ts r) (Sound closed ts) := by
  refine (ends_onDocument_with (Document.ends_require s.document r)).mono ?_ ?_
  · rintro _ _ ⟨_, rfl, rfl, hl⟩
    exact ⟨h, hl, hr⟩
  · rintro _ ⟨_, rfl, rfl⟩
    exact h

namespace Placed

theorem tie {x : NodeRef} (h : s.Placed closed ts r) (id : NodeId) (hl : s.store.Live x)
    (hx : x ∉ Store.refsOf ts) :
    Placed closed ts r { s with bindings := s.bindings.bind id x } :=
  ⟨h.sound.tie id hl hx, h.live, h.outside⟩

theorem tieElements {s : Scene Reaction} (h : s.Placed closed ts r) (elements : List (NodeId × String)) :
    Ends (Host.tieElements elements) s (fun _ => Placed closed ts r) (Placed closed ts r) := by
  induction elements generalizing s with
  | nil => exact Ends.pure h
  | cons e rest ih =>
    obtain ⟨id, domId⟩ := e
    refine Ends.get_bind ?_
    split
    · rename_i x hx
      obtain ⟨hl, hn⟩ := h.sound.elementById?_spec hx
      have htie : Ends (Scene.tie id x) s (fun _ => Placed closed ts r) (Placed closed ts r) :=
        Ends.modify (h.tie id hl hn)
      exact htie.bind fun _ _ h => ih h
    · exact Ends.throw_bind h

/-! ## Listeners for the compute module -/

theorem removeDelegate (h : s.Placed closed ts r) (scope : NodeRef) (name : String) (capture : Bool) :
    Ends (onDocument (Document.removeListener scope name delegateHandler capture)) s
      (fun _ => Placed closed ts r) (Placed closed ts r) := by
  refine (ends_onDocument_with
    (Document.ends_removeListener s.document scope name delegateHandler capture)).mono ?_ ?_
  · rintro _ _ ⟨_, rfl, -, -, rfl⟩
    refine ⟨?_, h.live, h.outside⟩
    rcases h.sound.listeners.perm_remove scope name delegateHandler capture with ha | ⟨-, l, hl, hp⟩
    · rw [ha]
      exact h.sound
    · refine h.sound.withListeners (h.sound.listeners.remove scope name delegateHandler capture)
        (fun x hx => h.sound.listening (Registry.nodes_remove_subset _ _ _ _ _ hx)) fun hclosed => ?_
      have hcounted := h.sound.counted hclosed
      refine ⟨fun m hm => hcounted.ours m (hp.mem_iff.mpr (List.mem_cons_of_mem l hm)), ?_⟩
      rw [← uses_eq hp hl]
      exact hcounted.callbacks
  · rintro _ ⟨_, rfl, rfl⟩
    exact h

theorem addDelegate (h : s.Placed closed ts r) (name : String) :
    Ends (onDocument (Document.addListener r (Host.delegateListener name))) s
      (fun _ => Placed closed ts r) (Placed closed ts r) := by
  have hours : Ours (Host.delegateListener name) := ⟨rfl, Or.inl rfl⟩
  refine (ends_onDocument_with
    (Document.ends_addListener s.document r (Host.delegateListener name))).mono ?_ ?_
  · rintro _ _ ⟨_, rfl, -, -, rfl⟩
    refine ⟨?_, h.live, h.outside⟩
    rcases s.document.listeners.perm_add r (Host.delegateListener name) with ha | ⟨-, hp⟩
    · rw [ha]
      exact h.sound
    · refine h.sound.withListeners (h.sound.listeners.add r _)
        (h.sound.listening_add h.live h.outside _) fun hclosed => ?_
      have hcounted := h.sound.counted hclosed
      refine ⟨hcounted.ours_add hours r, ?_⟩
      rw [uses_eq hp rfl]
      exact hcounted.callbacks
  · rintro _ ⟨_, rfl, rfl⟩
    exact h

end Placed

end Scene

/-! ## Starting -/

namespace Host

variable {α : Type} {closed : Prop} {h : Host} {ts : List (Node × Forest Node)} {r : NodeRef}

/-- An operation on the scene changes only the scene. -/
theorem ends_onScene_with {x : SceneM Reaction α} {Q : α → Scene Reaction → Prop}
    {E : Scene Reaction → Prop} (hx : Ends x h.scene Q E) :
    Ends (onScene x) h (fun a k => ∃ s, k = { h with scene := s } ∧ Q a s)
      fun k => ∃ s, k = { h with scene := s } ∧ E s := by
  unfold Ends at hx
  unfold Ends onScene
  cases hs : x h.scene with
  | ok a s =>
    rw [hs] at hx
    exact ⟨s, rfl, hx⟩
  | error e s =>
    rw [hs] at hx
    exact ⟨s, rfl, hx⟩

/-- **An operation on the scene, seen from the host.** -/
theorem ends_onScene {x : SceneM Reaction α} {Q : α → Scene Reaction → Prop}
    {E : Scene Reaction → Prop} (hx : Ends x h.scene Q E) :
    Ends (onScene x) h (fun a h => Q a h.scene) fun h => E h.scene :=
  (ends_onScene_with hx).mono (fun _ _ ⟨_, hk, hq⟩ => hk ▸ hq) fun _ ⟨_, hk, he⟩ => hk ▸ he

theorem ends_uninstallDelegation (hp : h.scene.Placed closed ts r) :
    Ends uninstallDelegation h (fun _ h => h.scene.Placed closed ts r) fun h => h.scene.Placed closed ts r := by
  unfold uninstallDelegation
  refine Ends.get_bind ?_
  split
  · exact Ends.pure hp
  · rename_i scope _
    refine (Ends.modify (Q := fun _ h => h.scene.Placed closed ts r) hp).bind fun _ h hp => ?_
    refine (Ends.forM (I := fun h : Host => h.scene.Placed closed ts r) (fun name _ h hp => ?_) hp).bind
      fun _ _ hp => Ends.modify hp
    have hremove := ends_onScene (hp.removeDelegate scope name (delegateListener name).options.capture)
    exact hremove.discard.mono (fun _ _ ⟨_, hq⟩ => hq) fun _ he => he

theorem ends_addDelegates (hp : h.scene.Placed closed ts r) :
    Ends (addDelegates r) h (fun _ h => h.scene.Placed closed ts r) fun h => h.scene.Placed closed ts r := by
  unfold addDelegates
  refine Ends.foldlM (fun n name _ h hp => ?_) hp
  exact (ends_onScene (hp.addDelegate name)).bind fun _ _ hp => Ends.pure hp

/-- **Starting a host at a node outside the templates keeps its scene sound.** -/
theorem ends_start (hs : h.scene.Sound closed ts) (hr : r ∉ Store.refsOf ts)
    (elements : List (NodeId × String)) :
    Ends (start r elements) h (fun _ h => h.scene.Sound closed ts) fun h => h.scene.Sound closed ts := by
  unfold start
  have hrequire := (ends_onScene (Scene.ends_require hs hr)).discard
  refine hrequire.bind ?_
  rintro _ h ⟨_, hp⟩
  have htie : Ends (onScene (Scene.tie .root r)) h (fun _ h => h.scene.Placed closed ts r)
      fun h => h.scene.Sound closed ts := ends_onScene (Ends.modify (hp.tie .root hp.live hp.outside))
  refine htie.bind fun _ h hp => ?_
  have helements := ends_onScene (hp.tieElements elements)
  refine (helements.mono (fun _ _ hp => hp) fun _ hp => hp.sound).bind fun _ h hp => ?_
  refine Ends.get_bind (Ends.ite (fun _ => ?_) fun _ => Ends.pure hp.sound)
  unfold installDelegation
  have hleave := (ends_uninstallDelegation hp).mono (fun _ _ hp => hp) fun _ hp => hp.sound
  refine hleave.bind fun _ h hp => ?_
  have hadd := (ends_addDelegates hp).mono (fun _ _ hp => hp) fun _ hp => hp.sound
  exact hadd.bind fun _ _ hp => Ends.modify hp.sound

/-! ## What starting keeps -/

/-- A relation between hosts that allows other ids and listeners. -/
structure Lenient (R : Host → Host → Prop) : Prop extends Lasting R where
  bindings : ∀ h b, R h { h with scene := { h.scene with bindings := b } }
  listeners : ∀ (h : Host) g,
    R h { h with scene := { h.scene with document := { h.document with listeners := g } } }
  delegation : ∀ h d, R h { h with delegation := d }

/-- What an operation on the scene keeps of the host. -/
theorem keeps_onScene {R : Host → Host → Prop} {x : SceneM Reaction α}
    (hx : Keeps (fun s t => ∀ h : Host, R { h with scene := s } { h with scene := t }) x) :
    Keeps R (onScene x) := fun h =>
  (ends_onScene_with (hx h.scene)).mono (fun _ _ ⟨_, hk, hs⟩ => hk ▸ hs h) fun _ ⟨_, hk, hs⟩ => hk ▸ hs h

section Keeps

variable {R : Host → Host → Prop} (hR : Lenient R)

include hR

theorem keeps_onListeners {x : DocumentM α}
    (hx : Keeps (fun d d' => ∃ g, d' = { d with listeners := g }) x) :
    Keeps R (onScene (Scene.onDocument x)) := by
  refine keeps_onScene fun s => (Scene.ends_onDocument_with (hx s.document)).mono ?_ ?_
  · rintro _ _ ⟨_, rfl, g, rfl⟩ h
    exact hR.listeners { h with scene := s } g
  · rintro _ ⟨_, rfl, g, rfl⟩ h
    exact hR.listeners { h with scene := s } g

theorem keeps_require (r : NodeRef) :
    Keeps R (onScene (Scene.onDocument (Document.onStore (Store.require r)))) :=
  keeps_onListeners hR fun d => (Document.ends_require d r).mono (fun _ _ hd => ⟨d.listeners, hd.1⟩)
    fun _ hd => ⟨d.listeners, hd⟩

theorem keeps_tie (id : NodeId) (r : NodeRef) : Keeps R (onScene (Scene.tie id r)) :=
  fun h => hR.bindings h (h.scene.bindings.bind id r)

theorem keeps_tieElements (elements : List (NodeId × String)) :
    Keeps R (onScene (tieElements elements)) := by
  have hL : Lasting fun s t => ∀ h : Host, R { h with scene := s } { h with scene := t } :=
    ⟨fun s h => hR.refl _, fun hst htu h => hR.trans (hst h) (htu h)⟩
  refine keeps_onScene ?_
  induction elements with
  | nil => exact .pure hL _
  | cons e rest ih =>
    obtain ⟨id, domId⟩ := e
    refine Keeps.get_bind fun s => ?_
    split
    · exact .bind hL (.modify fun s h => hR.bindings { h with scene := s } _) fun _ => ih
    · exact .throw_bind hL _ _

theorem keeps_installDelegation (scope : NodeRef) : Keeps R (installDelegation scope) := by
  have hL := hR.toLasting
  have hnote : ∀ f : Host → Delegation,
      Keeps R (modify fun h => { h with delegation := f h } : HostM PUnit) :=
    fun f => .modify fun h => hR.delegation h (f h)
  have hadd : ∀ name,
      Keeps R (onScene (Scene.onDocument (Document.addListener scope (delegateListener name)))) :=
    fun name => keeps_onListeners hR fun d => (Document.ends_addListener d scope _).mono
      (fun _ _ hd => ⟨_, hd.2.2⟩) fun _ hd => ⟨d.listeners, hd⟩
  have hremove : ∀ r name handler capture,
      Keeps R (onScene (Scene.onDocument (Document.removeListener r name handler capture))) :=
    fun r name handler capture => keeps_onListeners hR fun d =>
      (Document.ends_removeListener d r name handler capture).mono (fun _ _ hd => ⟨_, hd.2.2⟩)
        fun _ hd => ⟨d.listeners, hd⟩
  unfold installDelegation uninstallDelegation addDelegates
  refine .bind hL (Keeps.get_bind fun h => ?_) fun _ => ?_
  · split
    · exact .pure hL _
    · refine .bind hL (hnote _) fun _ => .bind hL (.forM hL (fun name => ?_) _) fun _ => hnote _
      exact (hremove _ _ _ _).discard
  · refine .bind hL (.foldlM hL (fun n name => ?_) _ _) fun _ => hnote _
    exact .bind hL (hadd name) fun _ => .pure hL _

/-- **Starting a host changes only ids and listeners.** -/
theorem keeps_start (root : NodeRef) (elements : List (NodeId × String)) :
    Keeps R (start root elements) := by
  have hL := hR.toLasting
  unfold start
  refine .bind hL (keeps_require hR root).discard fun _ => .bind hL (keeps_tie hR _ _) fun _ => ?_
  refine .bind hL (keeps_tieElements hR elements) fun _ => Keeps.get_bind fun h => ?_
  exact .ite (keeps_installDelegation hR root) (.pure hL _)

end Keeps

end Host

end DomHost
