import DomHost.Proofs.Host.Calls
import DomHost.Proofs.Scene.Attends

/-!
# Moving the listeners that catch events

A host is started at a node, which then has the listeners that catch events for the compute module, and no
other node has any. The next start moves them. If the node is gone by then they are gone with it, and the
start fails.

* `Host.forM_removeDelegate`, `Host.exists_addDelegates`: removing and adding all of them;
* `Host.Upholds`: what operations do that leave them where they are meant to be;
* `Host.Staffed`: they are on the node they were moved to, under a condition, and on no other;
* `Host.Staffed.ends_uninstallDelegation`, `Host.Staffed.ends_installDelegation`: leaving a node for another;
* **`Host.Staffed.ends_start`**: a start moves them.
-/

namespace DomHost

namespace Scene

namespace Coherent

variable {κ : Type} {s : Scene κ}

theorem dismiss (h : s.Coherent) (scope : NodeRef) (names : List String) :
    Coherent { s with document :=
      { s.document with listeners := s.document.listeners.dismiss scope names } } := by
  induction names generalizing s with
  | nil => exact h
  | cons name names ih => exact ih (h.remove scope name delegateHandler (!bubblesByName name))

theorem hire (h : s.Coherent) {scope : NodeRef} (hl : s.store.Live scope)
    (names : List String) : Coherent { s with document :=
      { s.document with listeners := s.document.listeners.hire scope names } } := by
  induction names generalizing s with
  | nil => exact h
  | cons name names ih => exact ih (h.add (l := Host.delegateListener name) hl ⟨rfl, Or.inl rfl⟩) hl

end Coherent

/-- The document is the same. -/
def SameDocument (s t : Scene Reaction) : Prop := t.document = s.document

theorem lasting_sameDocument : DomHost.Lasting (Coherently SameDocument) :=
  lasting_coherently ⟨fun _ => rfl, fun h h' => h'.trans h⟩

theorem sameDocument_tie (id : NodeId) (r : NodeRef) :
    Keeps (Coherently SameDocument) (tie id r : SceneM Reaction Unit) :=
  .modify fun _ hs => ⟨hs.withBindings (hs.bindings.bind id r), rfl⟩

theorem sameDocument_tieElements (elements : List (NodeId × String)) :
    Keeps (Coherently SameDocument) (Host.tieElements elements) := by
  have hL := lasting_sameDocument
  induction elements with
  | nil => exact .pure hL _
  | cons e rest ih =>
    obtain ⟨id, domId⟩ := e
    refine Keeps.get_bind fun s => ?_
    split
    · exact .bind hL (sameDocument_tie id _) fun _ => ih
    · exact .throw_bind hL _ _

end Scene

namespace Host

variable {h k : Host} {scope r : NodeRef} {p q : NodeRef → Prop}

/-! ## Moving the listeners -/

/-- A host with other listeners. -/
def withListeners (h : Host) (g : Registry) : Host :=
  { h with scene := { h.scene with document := { h.document with listeners := g } } }

theorem onScene_of_ok {α : Type} {x : DocumentM α} {a : α} {d : Document} (hx : x h.document = .ok a d) :
    onScene (Scene.onDocument x) h = .ok a { h with scene := { h.scene with document := d } } := by
  rw [onScene, Scene.onDocument_of_ok (s := h.scene) hx]

theorem onScene_of_error {α : Type} {x : DocumentM α} {e : DomError} {d : Document}
    (hx : x h.document = .error e d) :
    onScene (Scene.onDocument x) h =
      .error (.document e) { h with scene := { h.scene with document := d } } := by
  rw [onScene, Scene.onDocument_of_error (s := h.scene) hx]

/-- Removes the listener that catches the events of a name. -/
def removeDelegate (scope : NodeRef) (name : String) : HostM Unit :=
  discard (onScene (Scene.onDocument (Document.removeListener scope name delegateHandler
    (!bubblesByName name))))

theorem forM_removeDelegate (hl : h.scene.store.Live scope) (names : List String) :
    names.forM (removeDelegate scope) h =
      .ok ⟨⟩ (h.withListeners (h.document.listeners.dismiss scope names)) := by
  induction names generalizing h with
  | nil => rfl
  | cons name names ih =>
    have hone := discard_of_ok (onScene_of_ok (Document.removeListener_of_live hl name delegateHandler
      (!bubblesByName name)))
    change (removeDelegate scope name >>= fun _ => names.forM (removeDelegate scope)) h = _
    rw [bind_of_ok (x := removeDelegate scope name) hone]
    exact ih hl

theorem forM_removeDelegate_of_not_live (hl : ¬ h.scene.store.Live scope) {names : List String}
    (hn : names ≠ []) :
    names.forM (removeDelegate scope) h = .error (.document (.notFound scope)) h := by
  obtain ⟨name, names, rfl⟩ := List.exists_cons_of_ne_nil hn
  have hone := discard_of_error (onScene_of_error (Document.removeListener_of_not_live hl name
    delegateHandler (!bubblesByName name)))
  exact bind_of_error (x := removeDelegate scope name) hone _

/-- A host that has forgotten where the listeners are. -/
def forgetting (h : Host) : Host := { h with delegation := { h.delegation with scope := none } }

/-- The listeners of a node that is gone are looked for, and the node is forgotten. -/
theorem uninstallDelegation_of_not_live (hs : h.delegation.scope = some scope) (hl : ¬ h.scene.store.Live scope) :
    uninstallDelegation h = .error (.document (.notFound scope)) h.forgetting := by
  have hloop := forM_removeDelegate_of_not_live (h := h.forgetting) hl (by decide : delegatedNames ≠ [])
  unfold uninstallDelegation
  rw [get_bind_apply, hs]
  change (delegatedNames.forM (removeDelegate scope) >>= fun _ => _) h.forgetting = _
  rw [bind_of_error hloop]

/-- Adds the listener that catches the events of a name, and counts it if it is new. -/
def addDelegate (scope : NodeRef) (n : Nat) (name : String) : HostM Nat := do
  let added ← onScene (Scene.onDocument (Document.addListener scope (delegateListener name)))
  pure (if added then n + 1 else n)

theorem exists_foldlM_addDelegate (hl : h.scene.store.Live scope) (names : List String) (n : Nat) :
    ∃ m, names.foldlM (addDelegate scope) n h =
      .ok m (h.withListeners (h.document.listeners.hire scope names)) := by
  induction names generalizing h n with
  | nil => exact ⟨n, rfl⟩
  | cons name names ih =>
    have hone := onScene_of_ok (Document.addListener_of_live hl (delegateListener name))
    obtain ⟨m, hm⟩ := ih (h := h.withListeners (h.document.listeners.add scope (delegateListener name)).2) hl
      (if (h.document.listeners.add scope (delegateListener name)).1 then n + 1 else n)
    refine ⟨m, ?_⟩
    rw [List.foldlM_cons, bind_of_ok (x := addDelegate scope n name) (bind_of_ok hone)]
    exact hm

theorem exists_addDelegates (hl : h.scene.store.Live scope) : ∃ n, addDelegates scope h =
    .ok n (h.withListeners (h.document.listeners.hire scope delegatedNames)) :=
  exists_foldlM_addDelegate hl delegatedNames 0

/-! ## What is not changed -/

/-- The listeners are meant for the same node, and the scene stays coherent and is related to what it was. -/
structure Upholds (P : Scene Reaction → Scene Reaction → Prop) (h k : Host) : Prop where
  delegation : k.delegation = h.delegation
  delegates : k.delegates = h.delegates
  scene : Scene.Coherently P h.scene k.scene

variable {P : Scene Reaction → Scene Reaction → Prop}

theorem lasting_upholds (hP : Lasting (Scene.Coherently P)) : Lasting (Upholds P) where
  refl h := ⟨rfl, rfl, hP.refl h.scene⟩
  trans hhk hkl := ⟨hkl.delegation.trans hhk.delegation, hkl.delegates.trans hhk.delegates,
    hP.trans hhk.scene hkl.scene⟩

theorem upholds_onScene {α : Type} {x : SceneM Reaction α} (hx : Keeps (Scene.Coherently P) x) :
    Keeps (Upholds P) (onScene x) := fun h =>
  (ends_onScene_with (hx h.scene)).mono (fun _ _ ⟨_, hk, hs⟩ => hk ▸ ⟨rfl, rfl, hs⟩)
    fun _ ⟨_, hk, hs⟩ => hk ▸ ⟨rfl, rfl, hs⟩

/-! ## Where the listeners are -/

/-- The listeners that catch events are on the node they were moved to, if it satisfies a condition, and on
no other. -/
structure Staffed (p : NodeRef → Prop) (h : Host) : Prop where
  coherent : h.scene.Coherent
  staff : ∀ x, h.delegation.scope = some x → p x → h.scene.delegates x = staff
  nil : ∀ x, (h.delegation.scope = some x → ¬ p x) → h.scene.delegates x = []

namespace Staffed

theorem congr (hp : h.Staffed p) (hpq : ∀ x, h.delegation.scope = some x → (p x ↔ q x)) : h.Staffed q where
  coherent := hp.coherent
  staff x hx hq := hp.staff x hx ((hpq x hx).mpr hq)
  nil x hn := hp.nil x fun hx hp => hn hx ((hpq x hx).mp hp)

theorem mem_staff (hp : h.Staffed p) (x : NodeRef) : ∀ l ∈ h.scene.delegates x, l ∈ Host.staff := by
  by_cases hx : h.delegation.scope = some x ∧ p x
  · rw [hp.staff x hx.1 hx.2]
    exact fun _ => id
  · rw [hp.nil x fun hs hq => hx ⟨hs, hq⟩]
    exact fun l hl => absurd hl List.not_mem_nil

/-- A node that is not live has no listeners in any case. -/
theorem live (hp : h.Staffed p) : h.Staffed fun x => p x ∧ h.scene.store.Live x where
  coherent := hp.coherent
  staff x hx hq := hp.staff x hx hq.1
  nil x hn := by
    by_cases hl : h.scene.store.Live x
    · exact hp.nil x fun hx hp => hn hx ⟨hp, hl⟩
    · exact hp.coherent.delegates_eq_nil hl

theorem of_sameDocument (hp : h.Staffed p) (hk : Upholds Scene.SameDocument h k) : k.Staffed p := by
  obtain ⟨hcoherent, hdoc⟩ := hk.scene hp.coherent
  have hsame : ∀ x, k.scene.delegates x = h.scene.delegates x := fun x =>
    congrArg (fun d : Document => d.listeners.delegates x) hdoc
  exact ⟨hcoherent, fun x hx hq => (hsame x).trans (hp.staff x (hk.delegation ▸ hx) hq),
    fun x hn => (hsame x).trans (hp.nil x (hk.delegation ▸ hn))⟩

/-- The listeners left on nodes without those that catch events. As a computation this goes over all names, so
it is only known by its properties. -/
theorem exists_dismiss (hp : h.Staffed p) (hscope : h.delegation.scope = some scope) :
    ∃ g, h.document.listeners.dismiss scope delegatedNames = g ∧ (h.withListeners g).scene.Coherent ∧
      ∀ x, g.delegates x = [] := by
  refine ⟨_, rfl, hp.coherent.dismiss scope delegatedNames, fun x => ?_⟩
  refine (Registry.delegates_dismiss hp.coherent.document.listeners (hp.mem_staff scope) x).trans ?_
  split_ifs with hx
  · rfl
  · exact hp.nil x fun hs => absurd (Option.some.inj (hscope.symm.trans hs)).symm hx

/-- **No node has listeners that catch events when the node they were on is left.** -/
theorem ends_uninstallDelegation (hp : h.Staffed p) :
    Ends uninstallDelegation h
      (fun _ k => k.scene.Coherent ∧ k.scene.store = h.scene.store ∧ ∀ x, k.scene.delegates x = [])
      (Staffed p) := by
  cases hscope : h.delegation.scope with
  | none =>
    refine Ends.get_bind ?_
    rw [hscope]
    exact Ends.pure ⟨hp.coherent, rfl, fun x => hp.nil x fun hx => absurd (hscope.symm.trans hx) (by simp)⟩
  | some scope =>
    by_cases hl : h.scene.store.Live scope
    · refine Ends.get_bind ?_
      rw [hscope]
      refine (Ends.modify (Q := fun _ k => k = h.forgetting) rfl).bind ?_
      rintro _ _ rfl
      obtain ⟨g, hg, hcoherent, hnil⟩ := hp.exists_dismiss hscope
      have hloop := forM_removeDelegate (h := h.forgetting) hl delegatedNames
      rw [show h.forgetting.document.listeners.dismiss scope delegatedNames = g from hg] at hloop
      have hends : Ends (delegatedNames.forM (removeDelegate scope)) h.forgetting
          (fun _ k => k = h.forgetting.withListeners g) (Staffed p) := Ends.of_eq hloop rfl
      refine hends.bind ?_
      rintro _ _ rfl
      exact Ends.modify ⟨hcoherent, rfl, hnil⟩
    · have hnil : ∀ x, h.scene.delegates x = [] := fun x => by
        by_cases hx : scope = x
        · exact hp.coherent.delegates_eq_nil (hx ▸ hl)
        · exact hp.nil x fun hs => absurd (Option.some.inj (hscope.symm.trans hs)) hx
      exact Ends.of_eq_error (uninstallDelegation_of_not_live hscope hl)
        ⟨hp.coherent, fun x hx => absurd hx (by simp [forgetting]), fun x _ => hnil x⟩

/-- **A node gets the listeners when no node has any.** -/
theorem ends_installDelegation (hp : h.Staffed p) (hr : h.scene.store.Live r) :
    Ends (installDelegation r) h
      (fun _ k => k.delegation.scope = some r ∧ k.Staffed fun _ => True) (Staffed p) := by
  unfold installDelegation
  refine hp.ends_uninstallDelegation.bind ?_
  rintro _ k ⟨hk, hstore, hnil⟩
  have hl : k.scene.store.Live r := hstore ▸ hr
  obtain ⟨n, hn⟩ := exists_addDelegates hl
  -- as with `exists_dismiss`, the listeners are not computed
  obtain ⟨g, hg⟩ : ∃ g, k.document.listeners.hire r delegatedNames = g := ⟨_, rfl⟩
  have hcoherent : (k.withListeners g).scene.Coherent := hg ▸ hk.hire hl delegatedNames
  have hall : ∀ x, g.delegates x = if x = r then Host.staff else [] := fun x => by
    rw [← hg]
    exact (Registry.delegates_hire hk.document.listeners (hnil r) x).trans (if_congr Iff.rfl rfl (hnil x))
  rw [hg] at hn
  have hends : Ends (addDelegates r) k (fun _ l => l = k.withListeners g) (Staffed p) := Ends.of_eq hn rfl
  refine hends.bind ?_
  rintro _ _ rfl
  refine Ends.modify ⟨rfl, hcoherent, fun x hx _ => ?_, fun x hn => ?_⟩
  · exact (hall x).trans (if_pos (Option.some.inj hx).symm)
  · exact (hall x).trans (if_neg fun hx => hn (congrArg some hx.symm) trivial)

/-- **A start moves the listeners, if events are to be caught.** -/
theorem ends_start (hp : h.Staffed p) (r : NodeRef) (elements : List (NodeId × String)) :
    Ends (start r elements) h
      (fun _ k => if h.delegates then k.delegation.scope = some r ∧ k.Staffed fun _ => True else k.Staffed p)
      (Staffed p) := by
  have hL := lasting_upholds Scene.lasting_sameDocument
  have htie := upholds_onScene (Scene.sameDocument_tie .root r)
  have helements := upholds_onScene (Scene.sameDocument_tieElements elements)
  unfold start
  have hrequire :=
    (ends_onScene_with (Scene.ends_onDocument_with (Document.ends_require h.document r))).discard
  refine (hrequire.mono (fun _ _ hk => hk) ?_).bind ?_
  · rintro _ ⟨_, rfl, _, rfl, rfl⟩
    exact hp
  rintro _ _ ⟨_, _, rfl, _, rfl, rfl, hr⟩
  refine ((htie h).mono (fun _ _ hk => hk) fun _ => hp.of_sameDocument).bind fun _ k hk => ?_
  refine ((helements k).mono (fun _ _ hl => hL.trans hk hl) fun _ hl =>
    hp.of_sameDocument (hL.trans hk hl)).bind fun _ l hl => Ends.get_bind ?_
  have hlive : l.scene.store.Live r := by
    rw [Scene.store, (hl.scene hp.coherent).2]
    exact hr
  rw [← hl.delegates]
  exact Ends.ite (fun hd => by simpa [hd] using (hp.of_sameDocument hl).ends_installDelegation hlive)
    fun hd => Ends.pure (by simpa [hd] using hp.of_sameDocument hl)

end Staffed

end Host

end DomHost
