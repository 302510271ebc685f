import DomHost.Proofs.Host.Attended
import DomHost.Proofs.Scene.Redefined

/-!
# Templates that are defined anew in a run

A host may bind any live node to an id, also one in the tree of a template. When the template is defined anew by a
call or in a pass, the tree is freed but its ids and its listeners stay in the tables.

* `Host.coherent_of_mem_moments`: the parts of a scene agree at every moment;
* **`Host.supersedes_moments`**: what a definition that succeeds does to consistent tables;
* **`Host.exists_dangling_id`**: an id that dangles.
-/

namespace DomHost

theorem Scene.coherent_of_mem_along {κ : Type} {s t : Scene κ} (hs : s.Coherent) {is : List Instruction}
    (ht : t ∈ s.along is) : t.Coherent :=
  of_mem_along (fun _ i hs => hs.ends_execute i) hs ht

namespace Host

variable {d : Document} {calls : List Call} {s : Scene Reaction}

/-- **In every run the parts of a scene agree at every moment.** -/
theorem coherent_of_mem_moments (hd : d.store.WellFormed) (hl : d.listeners = {}) (buffer : SharedBuffer)
    (delegates : Bool) (hm : s ∈ (opened d buffer delegates).moments calls) : s.Coherent := by
  obtain ⟨before, -, hs⟩ := exists_of_mem_moments hm
  have hrest := (staffed_foldl_apply hd hl buffer delegates before).coherent
  rcases hs with rfl | ⟨offset, len, hs⟩
  · exact hrest
  · exact Scene.coherent_of_mem_along hrest hs

theorem saveTemplate_ok_iff {h k : Host} {number : UInt32} {ds : List Descriptor} :
    Host.saveTemplate number ds h = .ok () k ↔
      ∃ t, Scene.saveTemplate number ds h.scene = .ok () t ∧ k = { h with scene := t } := by
  unfold Host.saveTemplate onScene
  cases Scene.saveTemplate number ds h.scene with
  | ok a t => simp [eq_comm]
  | error e t => simp

/-- **In every run a template that is defined anew, by an instruction or by a call, leaves the ids and the counts of
the tree that gives way.** -/
theorem supersedes_moments (hd : d.store.WellFormed) (hl : d.listeners = {}) (buffer : SharedBuffer)
    (delegates : Bool) (calls : List Call) (number : UInt32) (ds : List Descriptor) :
    (∀ s ∈ (opened d buffer delegates).moments calls, s.Consistent → ∀ t,
      Scene.execute (.saveTemplate number ds) s = .ok () t → s.Supersedes number ds t) ∧
    ∀ k, (calls.foldl Call.apply (opened d buffer delegates)).scene.Consistent →
      Host.saveTemplate number ds (calls.foldl Call.apply (opened d buffer delegates)) = .ok () k →
      (calls.foldl Call.apply (opened d buffer delegates)).scene.Supersedes number ds k.scene := by
  constructor
  · intro s hm hs t ht
    exact (coherent_of_mem_moments hd hl buffer delegates hm).supersedes hs ht
  · intro k hs hk
    obtain ⟨t, ht, rfl⟩ := saveTemplate_ok_iff.mp hk
    exact (staffed_foldl_apply hd hl buffer delegates calls).coherent.supersedes hs ht

/-- An id is tied to an element of a template, which gets a listener that calls a closure. -/
theorem exists_supersedes :
    let edits := Instruction.encodeAll [.addListener ⟨5⟩ "click" ⟨7⟩ false]
    let calls : List Call := [.saveTemplate 1 [.element "div" none [] 1 false, .text "x"],
      .setNode ⟨5⟩ (.cell 4 0), .registerCallback ⟨7⟩ fun _ => {},
      .changeMemory { bytes := edits.toArray, maxPages := 1 }, .applyEdits 0 edits.length]
    let h := calls.foldl Call.apply (opened .new (.new 1 1) false)
    let ds : List Descriptor := [.element "p" none [] 0 false]
    h.scene ∈ (opened .new (.new 1 1) false).moments calls ∧ h.scene.Consistent ∧
      h.scene.replaced 1 ds = [.cell 4 0, .cell 5 0] ∧
      ∃ t, Scene.execute (.saveTemplate 1 ds) h.scene = .ok () t ∧ h.scene.Supersedes 1 ds t ∧
      ∃ k, Host.saveTemplate 1 ds h = .ok () k ∧ h.scene.Supersedes 1 ds k.scene ∧
        k.scene.callbacks.count ⟨7⟩ = k.scene.document.listeners.uses ⟨7⟩ + 1 := by
  intro edits calls h ds
  have hs : h.scene.Consistent := by
    refine ⟨fun id r hid => ?_, fun c => ?_⟩
    · have hall : ∀ p ∈ h.scene.bindings.pairs, h.scene.store.Live p.2 := by decide +kernel
      exact hall _ (Bindings.mem_pairs_of_get? hid)
    · have hlength : h.scene.callbacks.live.length = 1 := by decide +kernel
      obtain ⟨k, hlive⟩ := List.length_eq_one_iff.mp hlength
      have hk : ∀ k ∈ h.scene.callbacks.live, k.id = ⟨7⟩ ∧ k.count = 1 := by decide +kernel
      obtain ⟨hid, hcount⟩ := hk k (hlive ▸ List.mem_singleton_self k)
      have hone : h.scene.document.listeners.installed =
          [⟨"click", (⟨7⟩ : CallbackId).handler, {}⟩] := by decide +kernel
      rw [CallbackTable.count, CallbackTable.live?, hlive, Registry.uses, hone]
      by_cases hc : c = ⟨7⟩
      · simp [hc, hid, hcount]
      · have hne : (⟨7⟩ : CallbackId).handler ≠ c.handler := fun he => hc (CallbackId.handler_injective he).symm
        simp [hid, hne, Ne.symm hc]
  have hm := scene_foldl_apply_mem_moments (opened .new (.new 1 1) false) calls
  have hreplaced : h.scene.replaced 1 ds = [.cell 4 0, .cell 5 0] := by decide +kernel
  have huses : h.scene.document.listeners.usesAt [.cell 4 0, .cell 5 0] ⟨7⟩ = 1 := by decide +kernel
  obtain ⟨hinstruction, hcall⟩ :=
    supersedes_moments Document.over_new.store rfl (.new 1 1) false calls 1 ds
  have hok : (final? (Scene.saveTemplate 1 ds) h.scene).any (fun _ => true) = true := by decide +kernel
  obtain ⟨u, t, hrun, -⟩ := exists_of_final? hok
  have hexecute : Scene.execute (.saveTemplate 1 ds) h.scene = .ok () t := hrun
  have hk : Host.saveTemplate 1 ds h = .ok () { h with scene := t } := saveTemplate_ok_iff.mpr ⟨t, hrun, rfl⟩
  have hsupersedes : h.scene.Supersedes 1 ds t := hcall _ hs hk
  have hexcess := hsupersedes.excess ⟨7⟩
  rw [hreplaced, huses] at hexcess
  exact ⟨hm, hs, hreplaced, t, hexecute, hinstruction _ hm hs t hexecute, _, hk, hsupersedes, hexcess⟩

/-- **An id that dangles**: it is tied to the element of a template, which is then defined anew. -/
theorem exists_dangling_id :
    let h := [Call.saveTemplate 1 [.element "div" none [] 0 false], .setNode ⟨5⟩ (.cell 4 0)].foldl Call.apply
      (opened .new (.new 1 1) false)
    h.scene.Consistent ∧ ∃ k, Host.saveTemplate 1 [.element "p" none [] 0 false] h = .ok () k ∧
      k.scene.bindings.get? ⟨5⟩ = some (.cell 4 0) ∧ k.scene.store.get? (.cell 4 0) = none ∧
      ¬ k.scene.Consistent := by
  intro h
  have hs : h.scene.Consistent := by
    refine ⟨fun id r hid => ?_, fun c => ?_⟩
    · have hall : ∀ p ∈ h.scene.bindings.pairs, h.scene.store.Live p.2 := by decide +kernel
      exact hall _ (Bindings.mem_pairs_of_get? hid)
    · have hunused : h.scene.callbacks.live = [] := rfl
      have hnone : h.scene.document.listeners.installed = [] := by decide +kernel
      rw [CallbackTable.count, CallbackTable.live?, hunused, Registry.uses, hnone]
      rfl
  have hok : (final? (Host.saveTemplate 1 [.element "p" none [] 0 false]) h).any (fun k =>
      decide (k.scene.bindings.get? ⟨5⟩ = some (.cell 4 0) ∧ k.scene.store.get? (.cell 4 0) = none)) = true := by
    decide +kernel
  obtain ⟨u, k, hrun, hk⟩ := exists_of_final? hok
  obtain ⟨hid, hgone⟩ := of_decide_eq_true hk
  refine ⟨hs, k, hrun, hid, hgone, fun hc => ?_⟩
  have hlive := Store.get?_isSome_iff.mpr (hc.live _ _ hid)
  rw [hgone] at hlive
  cases hlive

end Host

end DomHost
