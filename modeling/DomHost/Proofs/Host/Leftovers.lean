import DomHost.Proofs.Host.Moments
import DomHost.Proofs.Scene.Tidiness

/-!
# What passes leave behind

A host starts tidy, and only passes can leave nodes behind. So it stays tidy as long as every instruction of
every pass spares what it finds. This is not always so: a detached tree is looked at when its top loses its
id, and not when the last node below does.

* `Host.SameNodes`: calls that leave nodes, ids and templates alone;
* `Host.Call.proceeds`: passes that succeed, and calls of this kind;
* `Host.Call.Spares`, **`Host.tidy_apply_iff`**: one call;
* **`Host.tidy_iff_spares`**: a host stays tidy exactly if all its passes spare what they find;
* **`Host.exists_left_behind`**: a pass that leaves nodes behind.
-/

namespace DomHost

/-- Whether a scene is tidy depends on its nodes, ids and templates. -/
theorem Scene.tidy_congr {κ : Type} {s t : Scene κ} (hstore : t.store = s.store)
    (hbindings : t.bindings = s.bindings) (htemplates : t.templates = s.templates) : t.Tidy ↔ s.Tidy := by
  simp only [Tidy, Bound, hstore, hbindings, htemplates]

namespace Host

variable {α : Type} {closed : Prop} {h k : Host} {c : Call} {calls : List Call}

/-! ## Calls apart from passes -/

/-- The nodes, the ids and the templates are the same. -/
def SameNodes (h k : Host) : Prop :=
  k.scene.store = h.scene.store ∧ k.scene.bindings = h.scene.bindings ∧
    k.scene.templates = h.scene.templates

theorem SameNodes.tidy_iff (hk : h.SameNodes k) : k.scene.Tidy ↔ h.scene.Tidy :=
  Scene.tidy_congr hk.1 hk.2.1 hk.2.2

theorem lasting_sameNodes : Lasting SameNodes :=
  ⟨fun _ => ⟨rfl, rfl, rfl⟩, fun ⟨hs, hb, ht⟩ ⟨hs', hb', ht'⟩ => ⟨hs'.trans hs, hb'.trans hb, ht'.trans ht⟩⟩

theorem sameNodes_modifyGet {f : Host → α × Host} (hf : ∀ h, (f h).2.scene = h.scene) :
    Keeps SameNodes (modifyGet f : HostM α) := fun h => by
  have hsame : h.SameNodes (f h).2 := by
    rw [SameNodes, hf]
    exact ⟨rfl, rfl, rfl⟩
  exact Ends.modifyGet hsame

theorem sameNodes_withCallbacks
    (f : CallbackTable Reaction → Except CallbackError (α × CallbackTable Reaction)) :
    Keeps SameNodes (withCallbacks f) := by
  refine Keeps.get_bind fun h => ?_
  split
  · exact .bind lasting_sameNodes (.modify fun _ => ⟨rfl, rfl, rfl⟩) fun _ => .pure lasting_sameNodes _
  · exact .throw lasting_sameNodes _

theorem sameNodes_reportReleased : Keeps SameNodes reportReleased := .modify fun _ => ⟨rfl, rfl, rfl⟩

theorem sameNodes_runTimers (now : Instant) : Keeps SameNodes (runTimers now) := by
  refine .bind lasting_sameNodes (sameNodes_modifyGet fun _ => rfl) fun due => ?_
  exact .bind lasting_sameNodes (.modify fun _ => ⟨rfl, rfl, rfl⟩) fun _ => .pure lasting_sameNodes _

/-- An event changes no more of the document than its listeners. -/
theorem sameNodes_dispatch (compute : Reaction) (event : NativeEvent) :
    Keeps SameNodes (dispatch compute event) := by
  intro h
  unfold dispatch
  refine Ends.get_bind ?_
  split
  · rename_i proceed v hv
    have hstore := Document.dispatch_document (P := fun d => d.store = h.scene.store)
      (fun d r type handler capture hd => hd) hv rfl
    exact ⟨hstore, rfl, rfl⟩
  · exact Ends.throw (lasting_sameNodes.refl h)

/-- Does the call leave nodes and ids to passes, and succeed if it is one? -/
def Call.proceeds (h : Host) : Call → Bool
  | start .. | createNode _ | setNode .. | saveTemplate .. => false
  | applyEdits offset len =>
    match Host.applyEdits offset len h with
    | .ok _ _ => true
    | .error _ _ => false
  | _ => true

/-- Do calls proceed, made one after another? -/
def Proceeds (h : Host) : List Call → Prop
  | [] => True
  | c :: rest => c.proceeds h = true ∧ Proceeds (c.apply h) rest

instance decidableProceeds (h : Host) : (calls : List Call) → Decidable (h.Proceeds calls)
  | [] => inferInstanceAs (Decidable True)
  | c :: rest =>
    have := decidableProceeds (c.apply h) rest
    inferInstanceAs (Decidable (c.proceeds h = true ∧ Proceeds (c.apply h) rest))

theorem Call.permitted_of_proceeds (hc : c.proceeds h = true) : c.Permitted h := by
  cases c with
  | start root elements => exact absurd hc Bool.false_ne_true
  | setNode id r => exact absurd hc Bool.false_ne_true
  | _ => simp [Permitted, node?]

/-- **Only a pass, among the calls that proceed, can change nodes, ids and templates.** -/
theorem Call.sameNodes_of_proceeds (hc : c.proceeds h = true)
    (hpass : ∀ offset len, c ≠ .applyEdits offset len) : h.SameNodes (c.apply h) := by
  suffices hrun : Keeps SameNodes c.run from Call.apply_of_ends (hrun h)
  have hL := lasting_sameNodes
  cases c with
  | start root elements => exact absurd hc Bool.false_ne_true
  | createNode id => exact absurd hc Bool.false_ne_true
  | setNode id r => exact absurd hc Bool.false_ne_true
  | saveTemplate number ds => exact absurd hc Bool.false_ne_true
  | updateMemory buffer => exact .modify fun _ => ⟨rfl, rfl, rfl⟩
  | changeMemory buffer => exact .modify fun _ => ⟨rfl, rfl, rfl⟩
  | applyEdits offset len => exact absurd rfl (hpass offset len)
  | takeLastError => exact (sameNodes_modifyGet fun _ => rfl).discard
  | registerCallback id closure =>
    exact sameNodes_withCallbacks fun t => (t.register id closure).map fun t => ((), t)
  | disposeCallback id =>
    refine Keeps.discard (.bind hL (sameNodes_withCallbacks _) fun released => ?_)
    exact .bind hL sameNodes_reportReleased fun _ => .pure hL _
  | setTimeout delay => exact (sameNodes_modifyGet fun _ => rfl).discard
  | setInterval period => exact (sameNodes_modifyGet fun _ => rfl).discard
  | clearTimer token => exact (sameNodes_modifyGet fun _ => rfl).discard
  | runTimers now => exact (sameNodes_runTimers now).discard
  | dispatch compute event => exact (sameNodes_dispatch compute event).discard

/-! ## Passes -/

/-- Does every instruction of the call spare what it finds? -/
def Call.Spares (h : Host) : Call → Prop
  | applyEdits offset len => h.scene.SparesAll (Cursor.new h.memory.buffer offset len).decoded.1
  | _ => True

/-- Do calls spare what they find, made one after another? -/
def Spares (h : Host) : List Call → Prop
  | [] => True
  | c :: rest => c.Spares h ∧ Spares (c.apply h) rest

theorem ends_applyEdits_tidy (hs : h.scene.IsSound closed) (offset len : Nat) :
    Ends (applyEdits offset len) h
      (fun _ k => k.scene.Tidy ↔ h.scene.Tidy ∧ (Call.applyEdits offset len).Spares h) fun _ => True := by
  have hcarry : Ends (Scene.carryOut (Cursor.new h.memory.buffer offset len).decoded) h.scene
      (fun _ t => t.Tidy ↔ h.scene.Tidy ∧ (Call.applyEdits offset len).Spares h) fun _ => True := by
    unfold Scene.carryOut
    refine (hs.ends_sparesAll _).bind fun _ t ht => ?_
    split
    · exact Ends.throw trivial
    · exact Ends.pure ht
  rw [applyEdits_eq_applyBatch]
  unfold Ends applyBatch
  unfold Ends at hcarry
  simp only
  cases hrun : Scene.carryOut (Cursor.new h.memory.buffer offset len).decoded h.scene with
  | ok n t =>
    rw [hrun] at hcarry
    exact (Scene.tidy_congr rfl rfl rfl).trans hcarry
  | error e t => trivial

/-- **After a call a host is tidy exactly if it was so before and the call has spared what it found.** -/
theorem tidy_apply_iff (hs : h.scene.IsSound closed) (hc : c.proceeds h = true) :
    (c.apply h).scene.Tidy ↔ h.scene.Tidy ∧ c.Spares h := by
  by_cases hpass : ∃ offset len, c = .applyEdits offset len
  · obtain ⟨offset, len, rfl⟩ := hpass
    have hend := ends_applyEdits_tidy hs offset len
    unfold Ends at hend
    cases hrun : applyEdits offset len h with
    | ok n k =>
      rw [hrun] at hend
      have happly : (Call.applyEdits offset len).apply h = k := by
        rw [Call.apply, Call.run, discard_of_ok hrun]
      rwa [happly]
    | error e k =>
      rw [Call.proceeds, hrun] at hc
      exact absurd hc Bool.false_ne_true
  · have hother : ∀ offset len, c ≠ .applyEdits offset len := fun offset len he => hpass ⟨offset, len, he⟩
    have hspare : c.Spares h := by
      cases c with
      | applyEdits offset len => exact absurd rfl (hother offset len)
      | _ => trivial
    rw [(Call.sameNodes_of_proceeds hc hother).tidy_iff, and_iff_left hspare]

theorem tidy_foldl_apply_iff (hs : h.scene.IsSound closed) (hp : h.Proceeds calls) :
    (calls.foldl Call.apply h).scene.Tidy ↔ h.scene.Tidy ∧ h.Spares calls := by
  induction calls generalizing h with
  | nil => exact (and_iff_left trivial).symm
  | cons c rest ih =>
    obtain ⟨hc, hrest⟩ := hp
    have hnext := ih (isSound_apply hs (Call.permitted_of_proceeds hc)) hrest
    rw [List.foldl_cons, hnext, tidy_apply_iff hs hc, and_assoc]
    rfl

/-! ## Whole runs -/

/-- A host of a new document, started at its body. -/
def started (elements : List (NodeId × String)) (buffer : SharedBuffer) (delegates : Bool) : Host :=
  (Call.start (.cell 3 0) elements).apply (opened .new buffer delegates)

variable {elements : List (NodeId × String)} {buffer : SharedBuffer} {delegates : Bool}

theorem isSound_started : (started elements buffer delegates).scene.IsSound False :=
  isSound_apply ⟨[], Scene.sound_of_whole Document.whole_new⟩ fun _ _ _ he => absurd he List.not_mem_nil

theorem lenient_store : Lenient fun h k => k.scene.store = h.scene.store :=
  ⟨⟨fun _ => rfl, fun hk hl => hl.trans hk⟩, fun _ _ => rfl, fun _ _ => rfl, fun _ _ => rfl⟩

/-- All nodes of a new document are connected. -/
theorem tidy_started : (started elements buffer delegates).scene.Tidy := by
  have hstore : (started elements buffer delegates).scene.store = Document.new.store :=
    Call.apply_of_ends (P := fun k => k.scene.store = Document.new.store)
      (keeps_start lenient_store (.cell 3 0) elements (opened .new buffer delegates))
  intro r hr
  refine Or.inl ?_
  rw [hstore] at hr ⊢
  have hconnected : ∀ x ∈ Document.new.store.refs, Document.new.store.isConnected x = true := by
    decide +kernel
  exact hconnected r (Store.get?_isSome_iff.mp hr)

theorem Proceeds.of_prefix {before : List Call} (hb : before <+: calls) (hp : h.Proceeds calls) :
    h.Proceeds before := by
  induction before generalizing h calls with
  | nil => trivial
  | cons c rest ih =>
    obtain ⟨later, rfl⟩ := hb
    exact ⟨hp.1, ih (List.prefix_append rest later) hp.2⟩

theorem Spares.of_prefix {before : List Call} (hb : before <+: calls) (hp : h.Spares calls) :
    h.Spares before := by
  induction before generalizing h calls with
  | nil => trivial
  | cons c rest ih =>
    obtain ⟨later, rfl⟩ := hb
    exact ⟨hp.1, ih (List.prefix_append rest later) hp.2⟩

/-- **A host is tidy after every call exactly if all calls spare what they find.** -/
theorem tidy_iff_spares (hp : (started elements buffer delegates).Proceeds calls) :
    (∀ before, before <+: calls →
      (before.foldl Call.apply (started elements buffer delegates)).scene.Tidy) ↔
        (started elements buffer delegates).Spares calls := by
  have hone : ∀ before, before <+: calls →
      ((before.foldl Call.apply (started elements buffer delegates)).scene.Tidy ↔
        (started elements buffer delegates).Spares before) := fun before hb => by
    rw [tidy_foldl_apply_iff isSound_started (hp.of_prefix hb), and_iff_right tidy_started]
  exact ⟨fun hall => (hone calls (List.prefix_refl calls)).mp (hall calls (List.prefix_refl calls)),
    fun hs before hb => (hone before hb).mpr (hs.of_prefix hb)⟩

/-- A pass that creates a node, and one that gives it up. -/
theorem exists_tidy_iff_spares : ∃ (buffer : SharedBuffer) (calls : List Call), calls.length = 2 ∧
    (started [] buffer true).Proceeds calls ∧
    ((∀ before, before <+: calls → (before.foldl Call.apply (started [] buffer true)).scene.Tidy) ↔
      (started [] buffer true).Spares calls) := by
  let buffer : SharedBuffer :=
    { bytes := (Instruction.encodeAll [.createPlaceholder ⟨5⟩, .freeId ⟨5⟩]).toArray, maxPages := 1 }
  have hp : (started [] buffer true).Proceeds [.applyEdits 0 5, .applyEdits 5 5] := by decide +kernel
  exact ⟨buffer, [.applyEdits 0 5, .applyEdits 5 5], rfl, hp, tidy_iff_spares hp⟩

/-- **A pass that leaves two nodes behind.** The first node is at the top of its tree, but has lost its id
when the second one loses its own. -/
theorem exists_left_behind : ∃ (buffer : SharedBuffer) (calls : List Call),
    (started [] buffer true).Proceeds calls ∧
      ¬ (calls.foldl Call.apply (started [] buffer true)).scene.Tidy := by
  let pass : List Instruction := [.createElement ⟨1⟩ "div" none, .createText ⟨2⟩ "x",
    .appendChildren ⟨1⟩ [⟨2⟩], .freeId ⟨1⟩, .freeId ⟨2⟩]
  let buffer : SharedBuffer := { bytes := (Instruction.encodeAll pass).toArray, maxPages := 1 }
  let calls : List Call := [.applyEdits 0 (Instruction.encodeAll pass).length]
  have hp : (started [] buffer true).Proceeds calls := by decide +kernel
  obtain ⟨h, hh, hlive, hconnected, hentries, hnodes⟩ : ∃ h,
      calls.foldl Call.apply (started [] buffer true) = h ∧
      (h.scene.store.get? (.cell 4 0)).isSome ∧ h.scene.store.isConnected (.cell 4 0) = false ∧
      h.scene.templates.entries = [] ∧
      ∀ x ∈ h.scene.bindings.nodes, h.scene.store.top? x ≠ h.scene.store.top? (.cell 4 0) :=
    ⟨_, rfl, by decide +kernel, by decide +kernel, by decide +kernel, by decide +kernel⟩
  refine ⟨buffer, calls, hp, fun ht => ?_⟩
  rw [hh] at ht
  rcases ht (.cell 4 0) hlive with hc | ⟨number, tm, htm, -⟩ | ⟨x, ⟨id, hid⟩, htop⟩
  · exact absurd (hconnected.symm.trans hc) Bool.false_ne_true
  · rw [Templates.get?, hentries] at htm
    exact absurd htm (by simp)
  · exact hnodes x (Bindings.mem_nodes_of_get? hid) htop

end Host

end DomHost
