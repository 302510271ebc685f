import DomHost.Proofs.Host.Calls

/-!
# Ids, nodes and closures stay consistent

However a host is called, an id and its node name each other and are not left behind by what is freed,
and every closure is there as long as a listener calls it.

* **`Scene.sound_of_whole`**: what a scene may start from;
* `Host.IdsAgree`: ids, the nodes they are bound to, and the nodes with listeners;
* **`Host.idsAgree_foldl_apply`**: they agree after any calls;
* `Host.ClosuresCounted`: closures, and the listeners that call them;
* **`Host.closuresCounted_foldl_apply`**: they are counted right after any calls.
-/

namespace DomHost

/-- A well-formed document without listeners makes a sound scene. -/
theorem Scene.sound_of_over {κ : Type} {d : Document} (hd : d.Over {} Store.WellFormed) :
    Scene.Sound (κ := κ) True [] { document := d } where
  store := ⟨hd.store, by simp, by simp [Scene.held, Bindings.nodes, Registry.nodes, hd.listeners]⟩
  bindings := ⟨List.nodup_nil, List.nodup_nil, List.Perm.refl _⟩
  listeners := by
    rw [hd.listeners]
    exact ⟨List.nodup_nil, by simp⟩
  counted _ := by
    refine ⟨by simp [hd.listeners, Registry.installed], ?_⟩
    rw [hd.listeners]
    exact ⟨by simp [CallbackTable.live?], fun _ _ => rfl, fun _ _ => rfl⟩
  templates := rfl
  separate := List.nodup_nil
  quiet := by simp [Store.refsOf]
  outside := by simp [Store.refsOf]

/-- A document whose parts agree makes a sound scene, whoever has put listeners on it. -/
theorem Scene.sound_of_whole {κ : Type} {d : Document} (hd : d.Whole) :
    Scene.Sound (κ := κ) False [] { document := d } where
  store := ⟨hd.store, by simp, fun r hr => hd.live r (by simpa [Scene.held, Bindings.nodes] using hr)⟩
  bindings := ⟨List.nodup_nil, List.nodup_nil, List.Perm.refl _⟩
  listeners := hd.listeners
  counted := False.elim
  templates := rfl
  separate := List.nodup_nil
  quiet := by simp [Store.refsOf]
  outside := by simp [Store.refsOf]

namespace Host

variable {h : Host} {d : Document} {calls : List Call}

/-- A host for a document, which catches events for the compute module or not. -/
def opened (d : Document) (buffer : SharedBuffer) (delegates : Bool) : Host :=
  { new d buffer with delegates }

theorem isSound_after (hd : d.Over {} Store.WellFormed) {buffer : SharedBuffer} {delegates : Bool}
    (hp : (opened d buffer delegates).Permits calls) :
    (calls.foldl Call.apply (opened d buffer delegates)).scene.IsSound True :=
  isSound_foldl_apply ⟨[], Scene.sound_of_over hd⟩ hp

/-! ## Ids and nodes -/

/-- Ids and nodes name each other, and no id and no listener is left at a node that is not live. -/
structure IdsAgree (h : Host) : Prop where
  node_iff : ∀ id r, h.node id = .ok r ↔ h.scene.bindings.idOf? r = some id
  count : h.scene.bindings.count = {id | (h.scene.bindings.get? id).isSome}.ncard
  bound : ∀ id r, h.node id = .ok r → (h.document.store.get? r).isSome
  listening : ∀ r, h.document.listeners.hasAny r = true → (h.document.store.get? r).isSome

theorem node_eq_ok {id : NodeId} {r : NodeRef} :
    h.node id = .ok r ↔ h.scene.bindings.get? id = some r := by
  unfold node
  split
  · rename_i x hx
    rw [hx, Except.ok.injEq, Option.some.injEq]
  · rename_i hn
    simp [hn]

theorem idsAgree_of_isSound (hs : h.scene.IsSound True) : h.IdsAgree := by
  obtain ⟨ts, hs⟩ := hs
  refine ⟨fun id r => ?_, hs.bindings.ncard_eq_count.symm, fun id r hr => ?_, fun r hr => ?_⟩
  · rw [node_eq_ok]
    exact hs.bindings.get?_eq_some_iff_idOf?
  · have hm := Bindings.mem_nodes_of_get? (node_eq_ok.mp hr)
    exact Store.get?_isSome_iff.mpr (hs.store.live r (List.mem_append_left _ hm))
  · have hm := Registry.hasAny_iff.mp hr
    exact Store.get?_isSome_iff.mpr (hs.store.live r (List.mem_append_right _ hm))

/-- **After any calls on a host of a new, empty or parsed document ids and nodes agree.** -/
theorem idsAgree_foldl_apply
    (hd : d = .new ∨ d = .empty ∨ ∃ html, Document.ofHtml html = .ok d)
    (buffer : SharedBuffer) (delegates : Bool) (hp : (opened d buffer delegates).Permits calls) :
    (calls.foldl Call.apply (opened d buffer delegates)).IdsAgree := by
  refine idsAgree_of_isSound (isSound_after ?_ hp)
  rcases hd with rfl | rfl | ⟨html, hd⟩
  · exact Document.over_new
  · exact Document.over_empty
  · exact Document.over_ofHtml hd

/-- Calls that tie an id to a node and keep a template. -/
theorem exists_idsAgree : ∃ calls, (opened .new (.new 1 1) true).Permits calls ∧
    (calls.foldl Call.apply (opened .new (.new 1 1) true)).node ⟨6⟩ = .ok (.cell 3 0) ∧
    (calls.foldl Call.apply (opened .new (.new 1 1) true)).IdsAgree :=
  ⟨[.saveTemplate 1 [.text "x"], .createNode ⟨6⟩, .setNode ⟨6⟩ (.cell 3 0)], by decide +kernel,
    by decide +kernel, idsAgree_foldl_apply (Or.inl rfl) (.new 1 1) true (by decide +kernel)⟩

/-! ## Closures -/

/-- Every closure is counted by the listeners that call it, is in use exactly if there are any, and does
not wait meanwhile. Whenever an event calls it, it is there. -/
structure ClosuresCounted (h : Host) : Prop where
  count : ∀ c, h.scene.callbacks.count c = h.document.listeners.uses c
  live : ∀ c, (h.scene.callbacks.live? c).isSome ↔ 1 ≤ h.document.listeners.uses c
  apart : ∀ c, ¬ ((h.scene.callbacks.pending? c).isSome ∧ (h.scene.callbacks.live? c).isSome)
  called : ∀ {σ : Type} (invoke : Document.Invoke σ) (event : NativeEvent) (st : σ),
    ∀ id ∈ Document.called invoke ⟨h.document, event, st⟩, ∀ c, Handler.ofId id = .callback c →
      ∃ k f t, h.scene.callbacks.live? c = some k ∧ k.closure = some f ∧
        h.scene.callbacks.enter c = .ok (f, t)

theorem closuresCounted_of_isSound (hs : h.scene.IsSound True) : h.ClosuresCounted := by
  obtain ⟨ts, hs⟩ := hs
  refine ⟨hs.callbacks.count_eq, fun c => hs.callbacks.isSome_live?_iff, fun c hc => ?_, ?_⟩
  · have hn := hs.callbacks.apart c hc.1
    rw [hn] at hc
    exact absurd hc.2 (by simp)
  · intro σ invoke event st id hid c hic
    obtain ⟨l, hl, rfl⟩ := Document.exists_of_mem_called (fun l hl => (hs.ours l hl).1) hid
    rcases (hs.ours l hl).2 with hd | ⟨c', hc⟩
    · rw [hd, Handler.ofId_delegateHandler] at hic
      cases hic
    · rw [hc, Handler.ofId_handler] at hic
      obtain rfl := Handler.callback.inj hic
      have huse : 0 < h.document.listeners.uses c' :=
        List.countP_pos_iff.mpr ⟨l, hl, beq_iff_eq.mpr hc⟩
      exact hs.callbacks.enter huse

/-- **After any calls on a host of a document without listeners its closures are counted right.** -/
theorem closuresCounted_foldl_apply (hd : d.store.WellFormed) (hl : d.listeners = {})
    (buffer : SharedBuffer) (delegates : Bool) (hp : (opened d buffer delegates).Permits calls) :
    (calls.foldl Call.apply (opened d buffer delegates)).ClosuresCounted :=
  closuresCounted_of_isSound (isSound_after ⟨hl, hd⟩ hp)

/-- Calls that install a listener with its closure. -/
theorem exists_closuresCounted : ∃ calls, (opened .new (.new 1 1) false).Permits calls ∧
    (calls.foldl Call.apply (opened .new (.new 1 1) false)).scene.callbacks.count ⟨7⟩ = 1 ∧
    (calls.foldl Call.apply (opened .new (.new 1 1) false)).ClosuresCounted := by
  let listen := Instruction.encode (.addListener .root "click" ⟨7⟩ false)
  refine ⟨[.start (.cell 3 0) [], .registerCallback ⟨7⟩ fun _ => {},
    .changeMemory { bytes := listen.toArray, maxPages := 1 }, .applyEdits 0 19], ?_, ?_, ?_⟩
  · decide +kernel
  · decide +kernel
  · exact closuresCounted_foldl_apply Document.over_new.store rfl (.new 1 1) false (by decide +kernel)

end Host

end DomHost
