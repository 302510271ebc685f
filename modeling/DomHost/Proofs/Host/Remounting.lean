import DomHost.Proofs.Host.Attended

/-!
# Starting a host again

A start moves the listeners that catch events from the node of the start before. It does so in every state that
calls lead to, as long as this node is live. When it was freed in the meantime the listeners are gone with it,
but the start still looks for them there and fails. It has forgotten the node by then, so that it succeeds when
it is tried again.

* `Document.Bears`, `Document.exists_elementById?`: the ids that connected elements have;
* `Host.exists_start_eq`: a start, step by step;
* `Host.Catches`, `Host.KeepsCallers`: the listeners behind a start;
* `Host.exists_uninstallDelegation`, `Host.exists_installDelegation`: the listeners are moved;
* **`Host.Staffed.remounts_iff`**, **`Host.Staffed.falters`**: when a start succeeds, and when not;
* **`Host.remounts_foldl_apply`**: in every run;
* **`Host.exists_start_refused`**: a start behind one at a node that is gone.
-/

namespace DomHost

namespace Document

variable {d : Document} {x : NodeRef} {domId : String}

/-- Does a connected element have the `id`, which is not empty? -/
def Bears (d : Document) (domId : String) : Prop :=
  domId ≠ "" ∧ ∃ x, d.store.isConnected x = true ∧ d.store.attribute? x "id" = some domId

/-- **An `id` that a connected element has is found.** -/
theorem exists_elementById? (h : d.store.WellFormed) (hb : d.Bears domId) : ∃ r, d.elementById? domId = some r := by
  obtain ⟨hid, x, hx, ha⟩ := hb
  obtain ⟨n, c, ht⟩ := Store.exists_tree? h.live_root
  obtain ⟨e, he, hattr⟩ := Option.bind_eq_some_iff.mp ha
  obtain ⟨data, hdata, helement⟩ := Option.bind_eq_some_iff.mp he
  have hroot : x ≠ .root := fun hr => by
    have hdocument : data = .document := h.document_data (hr ▸ hdata)
    rw [hdocument] at helement
    cases helement
  have hbelow : x ∈ d.store.descendants .root :=
    h.mem_descendants_iff.mpr (List.mem_of_getLast? (beq_iff_eq.mp hx))
  obtain ⟨hm, hself⟩ := Store.mem_trees_of_tree? ht
  rw [Store.descendants_of_tree? ht, Forest.labels_mk, List.map_cons, hself, List.mem_cons] at hbelow
  obtain ⟨m, hmc, hmx⟩ := List.mem_map.mp (hbelow.resolve_left hroot)
  have hget : d.store.get? x = some m.data := by
    rw [h.get?_eq_some_iff, ← hmx]
    exact Forest.mem_toList_of_mem_labels hm (List.mem_cons_of_mem n hmc)
  obtain rfl : m.data = data := Option.some.inj (hget.symm.trans hdata)
  have hpasses : (m.data.element?.any fun e => e.attr? "id" == some domId) = true := by
    rw [helement, Option.any_some, hattr, beq_self_eq_true]
  have hfound : (c.toList.find? fun n => n.data.element?.any fun e => e.attr? "id" == some domId).isSome = true :=
    List.find?_isSome.mpr ⟨m, hmc, hpasses⟩
  obtain ⟨k, hk⟩ := Option.isSome_iff_exists.mp hfound
  unfold elementById?
  rw [if_neg (by simpa using hid), ht]
  exact ⟨k.ref, by simp only [hk, Option.map_some]⟩

end Document

namespace Host

variable {h k : Host} {root scope x : NodeRef} {elements : List (NodeId × String)} {p : NodeRef → Prop}

/-! ## A start, step by step -/

/-- A host with other ids. -/
def withBindings (h : Host) (b : Bindings) : Host := { h with scene := { h.scene with bindings := b } }

theorem exists_tieElements_eq {s : Scene Reaction}
    (hb : ∀ e ∈ elements, ∃ r, s.document.elementById? e.2 = some r) :
    ∃ b, tieElements elements s = .ok () { s with bindings := b } := by
  induction elements generalizing s with
  | nil => exact ⟨s.bindings, rfl⟩
  | cons e elements ih =>
    obtain ⟨⟨r, hr⟩, hrest⟩ := List.forall_mem_cons.mp hb
    obtain ⟨b, hrun⟩ := ih (s := { s with bindings := s.bindings.bind e.1 r }) hrest
    refine ⟨b, ?_⟩
    unfold tieElements
    rw [get_bind_apply]
    simp only [hr]
    exact hrun

/-- The ids are tied, and then the listeners are moved. -/
theorem exists_start_eq (hl : h.scene.store.Live root)
    (hb : ∀ e ∈ elements, ∃ r, h.document.elementById? e.2 = some r) :
    ∃ b, start root elements h = (if h.delegates then installDelegation root else pure ⟨⟩) (h.withBindings b) := by
  obtain ⟨n, c, ht⟩ := Store.exists_tree? hl
  have hget : h.document.store.get? root = some n.data := by
    rw [Store.get?, show h.document.store.tree? root = _ from ht, Option.map_some]
  have hrequire : discard (onScene (Scene.onDocument (Document.onStore (Store.require root)))) h = .ok () h :=
    discard_of_ok (onScene_of_ok (Document.onStore_of_ok (Store.require_of_get? hget)))
  obtain ⟨b, hties⟩ := exists_tieElements_eq
    (s := { h.scene with bindings := h.scene.bindings.bind .root root }) hb
  have htied : onScene (tieElements elements) (h.withBindings (h.scene.bindings.bind .root root)) =
      .ok ⟨⟩ (h.withBindings b) := by
    unfold onScene
    rw [show tieElements elements (h.withBindings (h.scene.bindings.bind .root root)).scene = _ from hties]
    rfl
  refine ⟨b, ?_⟩
  unfold start
  refine (bind_of_ok hrequire).trans ?_
  refine (bind_of_ok (x := onScene (Scene.tie .root root)) rfl).trans ?_
  exact bind_of_ok htied

/-! ## The listeners behind a start -/

/-- One listener of the whole registry catches the events of each delegated name, and it is on the node. -/
structure Catches (h : Host) (r : NodeRef) : Prop where
  scope : h.delegation.scope = some r
  once : ∀ name ∈ delegatedNames,
    h.document.listeners.installed.countP (fun l => l.type == name && l.handler == delegateHandler) = 1
  placed : ∀ x, h.document.listeners.delegates x = if x = r then staff else []

/-- The listeners that call closures are where they were, and the closures as they were. -/
structure KeepsCallers (h k : Host) : Prop where
  listeners : ∀ x, k.document.listeners.callers x = h.document.listeners.callers x
  callbacks : k.scene.callbacks = h.scene.callbacks

/-- The listeners are taken off a node that is live, or none has them. -/
theorem exists_uninstallDelegation (hg : h.document.listeners.Proper)
    (hs : ∀ s, h.delegation.scope = some s → h.scene.store.Live s) :
    ∃ k, uninstallDelegation h = .ok ⟨⟩ k ∧ k.scene.store = h.scene.store ∧ k.document.listeners.Proper ∧
      h.KeepsCallers k := by
  unfold uninstallDelegation
  rw [get_bind_apply]
  cases hscope : h.delegation.scope with
  | none => exact ⟨h, rfl, rfl, hg, fun _ => rfl, rfl⟩
  | some scope =>
    have hloop := forM_removeDelegate (h := h.forgetting) (hs scope hscope) delegatedNames
    -- as a computation the loop goes over all names, so what it leaves is only known by its properties
    obtain ⟨g, hleft, hproper, hcallers⟩ : ∃ g, h.document.listeners.dismiss scope delegatedNames = g ∧
        g.Proper ∧ ∀ x, g.callers x = h.document.listeners.callers x :=
      ⟨_, rfl, hg.dismiss scope delegatedNames, Registry.callers_dismiss hg scope delegatedNames⟩
    rw [show h.forgetting.document.listeners.dismiss scope delegatedNames = g from hleft] at hloop
    exact ⟨_, bind_of_ok (x := delegatedNames.forM (removeDelegate scope)) hloop, rfl, hproper, hcallers, rfl⟩

/-- A node gets the listeners when they have been taken off the one that had them. -/
theorem exists_installDelegation (hg : h.document.listeners.Proper) (hl : h.scene.store.Live root)
    (hs : ∀ s, h.delegation.scope = some s → h.scene.store.Live s) :
    ∃ k, installDelegation root h = .ok ⟨⟩ k ∧ h.KeepsCallers k := by
  obtain ⟨k, hu, hstore, hk, hcallers⟩ := exists_uninstallDelegation hg hs
  obtain ⟨n, hn⟩ := exists_addDelegates (hstore ▸ hl : k.scene.store.Live root)
  obtain ⟨g, hall, hkept⟩ : ∃ g, k.document.listeners.hire root delegatedNames = g ∧
      ∀ x, g.callers x = k.document.listeners.callers x :=
    ⟨_, rfl, Registry.callers_hire hk root delegatedNames⟩
  rw [hall] at hn
  unfold installDelegation
  rw [bind_of_ok hu, bind_of_ok hn]
  exact ⟨_, rfl, fun x => (hkept x).trans (hcallers.listeners x), hcallers.callbacks⟩

/-- A start succeeds, and the listeners that catch events are on its node alone, if events are to be caught. -/
def Remounts (h : Host) (root : NodeRef) (elements : List (NodeId × String)) : Prop :=
  ∃ k, start root elements h = .ok ⟨⟩ k ∧ (h.delegates = true → k.Catches root) ∧ h.KeepsCallers k

/-- A start looks for the listeners on a node that is gone, and fails. Events are not caught any more, but to try
again succeeds. -/
def Falters (h : Host) (root : NodeRef) (elements : List (NodeId × String)) (gone : NodeRef) : Prop :=
  ∃ k, start root elements h = .error (.document (.notFound gone)) k ∧ k.delegation.scope = none ∧
    (∀ x, k.document.listeners.delegates x = []) ∧ h.KeepsCallers k ∧ k.Remounts root elements

namespace Staffed

theorem catches (hk : k.Staffed fun _ => True) (hscope : k.delegation.scope = some root) : k.Catches root := by
  have hnone : ∀ x, x ≠ root → k.document.listeners.delegates x = [] := fun x hx =>
    hk.nil x fun hs => absurd (Option.some.inj (hscope.symm.trans hs)) (Ne.symm hx)
  have hproper : k.document.listeners.Proper := hk.coherent.document.listeners
  have hall : k.document.listeners.delegates root = Host.staff := hk.staff root hscope trivial
  refine ⟨hscope, fun name hname => ?_, fun x => ?_⟩
  · rw [← List.countP_filter, hproper.filter_installed hnone, hall]
    exact Registry.countP_staff hname
  · split_ifs with hx
    · exact hx ▸ hall
    · exact hnone x hx

variable (hp : h.Staffed p) (hl : h.scene.store.Live root) (hb : ∀ e ∈ elements, h.document.Bears e.2)
include hp hl hb

/-- The listeners leave a node that is live, or none. -/
theorem exists_start (hscope : h.delegates = true → ∀ s, h.delegation.scope = some s → h.scene.store.Live s) :
    ∃ k, start root elements h = .ok ⟨⟩ k ∧ h.KeepsCallers k := by
  have hproper : h.document.listeners.Proper := hp.coherent.document.listeners
  obtain ⟨b, hstart⟩ := exists_start_eq hl fun e he => Document.exists_elementById? hp.coherent.wellFormed (hb e he)
  by_cases hd : h.delegates = true
  · rw [if_pos hd] at hstart
    obtain ⟨k, hk, hcallers⟩ := exists_installDelegation (h := h.withBindings b) hproper hl (hscope hd)
    exact ⟨k, hstart.trans hk, hcallers.listeners, hcallers.callbacks⟩
  · rw [if_neg hd] at hstart
    exact ⟨_, hstart, fun _ => rfl, rfl⟩

theorem remounts (hscope : h.delegates = true → ∀ s, h.delegation.scope = some s → h.scene.store.Live s) :
    h.Remounts root elements := by
  obtain ⟨k, hstart, hcallers⟩ := hp.exists_start hl hb hscope
  refine ⟨k, hstart, fun hd => ?_, hcallers⟩
  have hk := (hp.ends_start root elements).ok hstart
  rw [if_pos hd] at hk
  exact hk.2.catches hk.1

/-- **A start fails when the node of the start before is gone.** -/
theorem falters (hd : h.delegates = true) (hs : h.delegation.scope = some scope)
    (hgone : ¬ h.scene.store.Live scope) : h.Falters root elements scope := by
  obtain ⟨b, hstart⟩ := exists_start_eq hl fun e he => Document.exists_elementById? hp.coherent.wellFormed (hb e he)
  have hu := uninstallDelegation_of_not_live (h := h.withBindings b) hs hgone
  rw [if_pos hd] at hstart
  have hfails : start root elements h = .error (.document (.notFound scope)) (h.withBindings b).forgetting :=
    hstart.trans (bind_of_error hu _)
  have hk := (hp.ends_start root elements).error hfails
  have hforgot : (h.withBindings b).forgetting.delegation.scope = none := rfl
  have hnone : ∀ x, (h.withBindings b).forgetting.delegation.scope ≠ some x := fun x hx => by cases hx
  refine ⟨_, hfails, hforgot, fun x => hk.nil x fun hx => absurd hx (hnone x), ⟨fun _ => rfl, rfl⟩, ?_⟩
  exact hk.remounts hl hb fun _ s hs => absurd hs (hnone s)

/-- **A start succeeds exactly if the node of the start before is still there.** -/
theorem remounts_iff : h.Remounts root elements ↔
    (h.delegates = true → ∀ s, h.delegation.scope = some s → h.scene.store.Live s) := by
  refine ⟨fun hremounts hd s hs => ?_, hp.remounts hl hb⟩
  by_contra hgone
  obtain ⟨k, hok, -⟩ := hremounts
  obtain ⟨k', herror, -⟩ := hp.falters hl hb hd hs hgone
  rw [hok] at herror
  cases herror

end Staffed

/-! ## Every run -/

variable {d : Document} {calls : List Call}

/-- **In every run a start at a live node succeeds, and moves the listeners, exactly if the node of the start before
is still there.** If it is gone the start fails once. -/
theorem remounts_foldl_apply (hd : d.store.WellFormed) (hl : d.listeners = {}) (buffer : SharedBuffer)
    (delegates : Bool) (hroot : (calls.foldl Call.apply (opened d buffer delegates)).scene.store.Live root)
    (hb : ∀ e ∈ elements, (calls.foldl Call.apply (opened d buffer delegates)).document.Bears e.2) :
    ((calls.foldl Call.apply (opened d buffer delegates)).Remounts root elements ↔
      ((calls.foldl Call.apply (opened d buffer delegates)).delegates = true →
        ∀ s, (calls.foldl Call.apply (opened d buffer delegates)).delegation.scope = some s →
          (calls.foldl Call.apply (opened d buffer delegates)).scene.store.Live s)) ∧
    ∀ s, (calls.foldl Call.apply (opened d buffer delegates)).delegates = true →
      (calls.foldl Call.apply (opened d buffer delegates)).delegation.scope = some s →
      ¬ (calls.foldl Call.apply (opened d buffer delegates)).scene.store.Live s →
      (calls.foldl Call.apply (opened d buffer delegates)).Falters root elements s :=
  have hstaffed := staffed_foldl_apply hd hl buffer delegates calls
  ⟨hstaffed.remounts_iff hroot hb, fun _ => hstaffed.falters hroot hb⟩

/-- A host is started again at an element in the body that has an `id`. -/
theorem exists_remounts : ∃ (calls : List Call) (h : Host),
    calls.foldl Call.apply (opened .new (.new 1 1) true) = h ∧ h.delegation.scope = some (.cell 3 0) ∧
    h.scene.store.Live (.cell 4 0) ∧ h.document.Bears "main" ∧ h.Remounts (.cell 4 0) [(⟨2⟩, "main")] := by
  let edits := Instruction.encodeAll [.createElement ⟨1⟩ "div" none, .setAttribute ⟨1⟩ "id" "main" none,
    .appendChildren .root [⟨1⟩]]
  let calls : List Call := [.start (.cell 3 0) [],
    .changeMemory { bytes := edits.toArray, maxPages := 1 }, .applyEdits 0 edits.length]
  obtain ⟨h, hh, hscope, hbody, hl, hconnected, hid⟩ : ∃ h,
      calls.foldl Call.apply (opened .new (.new 1 1) true) = h ∧ h.delegation.scope = some (.cell 3 0) ∧
      h.scene.store.Live (.cell 3 0) ∧ h.scene.store.Live (.cell 4 0) ∧
      h.document.store.isConnected (.cell 4 0) = true ∧
      h.document.store.attribute? (.cell 4 0) "id" = some "main" := ⟨_, rfl, by decide +kernel⟩
  have hbears : h.document.Bears "main" := ⟨by decide, _, hconnected, hid⟩
  have hb : ∀ e ∈ [((⟨2⟩ : NodeId), "main")], h.document.Bears e.2 := by
    intro e he
    rw [List.mem_singleton.mp he]
    exact hbears
  have hlive : (calls.foldl Call.apply (opened .new (.new 1 1) true)).scene.store.Live (.cell 4 0) := hh.symm ▸ hl
  have hremounts := remounts_foldl_apply Document.over_new.store rfl (.new 1 1) true hlive (hh.symm ▸ hb)
  rw [hh] at hremounts
  refine ⟨calls, h, hh, hscope, hl, hbears, hremounts.1.mpr fun _ s hs => ?_⟩
  exact Option.some.inj (hscope.symm.trans hs) ▸ hbody

/-- **A host that is started behind a start at a node that is gone.** The body is live and no element is asked for,
but the start fails. -/
theorem exists_start_refused : ∃ (calls : List Call) (h : Host),
    calls.foldl Call.apply (opened .new (.new 1 1) true) = h ∧ h.scene.store.Live (.cell 3 0) ∧
    h.delegation = ⟨some (.cell 4 0), delegatedNames.length⟩ ∧
    (∃ k, start (.cell 3 0) [] h = .error (.document (.notFound (.cell 4 0))) k) ∧
    ¬ h.Remounts (.cell 3 0) [] := by
  let make := Instruction.encodeAll [.createElement ⟨1⟩ "div" none]
  let drop := Instruction.encodeAll [.remove .root]
  let calls : List Call := [.start (.cell 3 0) [],
    .changeMemory { bytes := make.toArray, maxPages := 1 }, .applyEdits 0 make.length, .start (.cell 4 0) [],
    .changeMemory { bytes := drop.toArray, maxPages := 1 }, .applyEdits 0 drop.length]
  obtain ⟨h, hh, hl, hdelegation, hd, hgone⟩ : ∃ h,
      calls.foldl Call.apply (opened .new (.new 1 1) true) = h ∧ h.scene.store.Live (.cell 3 0) ∧
      h.delegation = ⟨some (.cell 4 0), delegatedNames.length⟩ ∧ h.delegates = true ∧
      ¬ h.scene.store.Live (.cell 4 0) := ⟨_, rfl, by decide +kernel⟩
  have hstaffed := staffed_foldl_apply Document.over_new.store rfl (.new 1 1) true calls
  rw [hh] at hstaffed
  have hscope : h.delegation.scope = some (.cell 4 0) := by rw [hdelegation]
  have hnone : ∀ e ∈ ([] : List (NodeId × String)), h.document.Bears e.2 := fun e he => absurd he List.not_mem_nil
  obtain ⟨k, hfails, -⟩ := hstaffed.falters hl hnone hd hscope hgone
  refine ⟨calls, h, hh, hl, hdelegation, ⟨k, hfails⟩, fun hremounts => ?_⟩
  exact hgone ((hstaffed.remounts_iff hl hnone).mp hremounts hd _ hscope)

end Host

end DomHost
