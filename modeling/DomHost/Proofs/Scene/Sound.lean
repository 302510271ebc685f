import DomHost.Edit.Execute
import DomHost.Proofs.Binding
import DomHost.Proofs.Callback
import DomHost.Proofs.Document

/-!
# Sound scenes

A scene is sound when its parts agree: ids and nodes are tied one to one, tied nodes and nodes with
listeners are live, and the trees of the templates are top-level trees that no id and no listener reaches.
In a closed scene, where nobody else has put listeners on the document, every closure is also counted by
the listeners that call it.

* `Scene.Sound`: sound scenes, closed or not, for the trees of their templates;
* **`Scene.Sound.onStore`**, **`Scene.Sound.onDocument`**: operations that leave ids and listeners alone;
* `Scene.Sound.tie`, `Scene.Sound.release`: a binding more or less;
* `Scene.Sound.strip`, **`Scene.Sound.foldl_strip`**: taking ids and listeners off nodes.
-/

namespace DomHost.Scene

variable {κ α : Type}

/-- The nodes with an id or a listener. -/
def held (s : Scene κ) : List NodeRef := s.bindings.nodes ++ s.document.listeners.nodes

/-- A listener that a scene has added: it stays when it is called, and calls a closure or the compute
module. -/
def Ours (l : Listener) : Prop :=
  l.options.once = false ∧ (l.handler = delegateHandler ∨ ∃ c : CallbackId, l.handler = c.handler)

/-- Every listener is one that a scene has added, and every closure is counted by the listeners that call
it. -/
structure Counted (s : Scene κ) : Prop where
  ours : ∀ l ∈ s.document.listeners.installed, Ours l
  callbacks : s.callbacks.Tallies s.document.listeners.uses

/-- A sound scene, closed or not, whose templates have the given trees. -/
structure Sound (closed : Prop) (ts : List (Node × Forest Node)) (s : Scene κ) : Prop where
  store : s.store.Guards ts s.held
  bindings : s.bindings.OneToOne
  listeners : s.document.listeners.Proper
  counted : closed → s.Counted
  templates : s.templates.entries.map (·.2.root) = ts.map (·.1.ref)
  /-- No two templates share a tree. -/
  separate : (ts.map (·.1.ref)).Nodup
  /-- No node of a template has an id or a listener. -/
  quiet : ∀ r ∈ s.held, r ∉ Store.refsOf ts
  outside : NodeRef.root ∉ Store.refsOf ts

variable {closed : Prop} {s s₀ : Scene κ} {ts : List (Node × Forest Node)} {r : NodeRef} {id : NodeId}

namespace Sound

theorem ours (h : s.Sound True ts) : ∀ l ∈ s.document.listeners.installed, Ours l :=
  (h.counted trivial).ours

theorem callbacks (h : s.Sound True ts) : s.callbacks.Tallies s.document.listeners.uses :=
  (h.counted trivial).callbacks

theorem notMem_of_get? (h : s.Sound closed ts) (hg : s.bindings.get? id = some r) : r ∉ Store.refsOf ts :=
  h.quiet r (List.mem_append_left _ (Bindings.mem_nodes_of_get? hg))

end Sound

/-! ## Operations on the document -/

section Results

variable {α : Type} {x : DocumentM α} {d : Document}

theorem onDocument_of_ok {a : α} (h : x s.document = .ok a d) :
    (onDocument x : SceneM κ α) s = .ok a { s with document := d } := by
  unfold onDocument
  rw [h]

theorem onDocument_of_error {e : DomError} (h : x s.document = .error e d) :
    (onDocument x : SceneM κ α) s = .error (.document e) { s with document := d } := by
  unfold onDocument
  rw [h]

end Results

/-! ## Operations on the store -/

/-- A scene that differs from another in its document alone, which has the same listeners. -/
structure Over (s₀ : Scene κ) (P : Store → Prop) (s : Scene κ) : Prop where
  document : s.document.Over s₀.document.listeners P
  bindings : s.bindings = s₀.bindings
  templates : s.templates = s₀.templates
  callbacks : s.callbacks = s₀.callbacks

theorem ends_onDocument {x : DocumentM α} {P : Store → Prop} {Q : α → Store → Prop}
    {E : Store → Prop} (h : Over s₀ P s)
    (hx : Ends x s.document (fun a => Document.Over s₀.document.listeners (Q a))
      (Document.Over s₀.document.listeners E)) :
    Ends (onDocument x) s (fun a => Over s₀ (Q a)) (Over s₀ E) := by
  unfold Ends at hx
  unfold Ends onDocument
  cases hd : x s.document with
  | ok a d =>
    rw [hd] at hx
    exact ⟨hx, h.bindings, h.templates, h.callbacks⟩
  | error e d =>
    rw [hd] at hx
    exact ⟨hx, h.bindings, h.templates, h.callbacks⟩

theorem ends_onStore {x : StoreM α} {P : Store → Prop} {Q : α → Store → Prop} {E : Store → Prop}
    (h : Over s₀ P s) (hx : Ends x s.store Q E) :
    Ends (onDocument (Document.onStore x)) s (fun a => Over s₀ (Q a)) (Over s₀ E) :=
  ends_onDocument h (Document.ends_onStore h.document.listeners hx)

namespace Sound

theorem overSelf (h : s.Sound closed ts) : Over s (Store.Guards ts s.held) s :=
  ⟨⟨rfl, h.store⟩, rfl, rfl, rfl⟩

theorem of_over (h : s₀.Sound closed ts) (ho : Over s₀ (Store.Guards ts s₀.held) s) : s.Sound closed ts := by
  obtain ⟨⟨hl, hs⟩, hb, ht, hc⟩ := ho
  have hheld : s.held = s₀.held := by rw [held, held, hl, hb]
  refine ⟨hheld ▸ hs, hb ▸ h.bindings, hl ▸ h.listeners, fun hclosed => ⟨?_, ?_⟩, ht ▸ h.templates,
    h.separate, hheld ▸ h.quiet, h.outside⟩
  · rw [hl]
    exact (h.counted hclosed).ours
  · rw [hc, hl]
    exact (h.counted hclosed).callbacks

/-- **An operation on the document that keeps the guarded trees and the held nodes.** -/
theorem onDocument (h : s.Sound closed ts) {x : DocumentM α}
    (hx : ∀ held d, d.Over s.document.listeners (Store.Guards ts held) →
      Ends x d (fun _ => Document.Over s.document.listeners (Store.Guards ts held))
        (Document.Over s.document.listeners (Store.Guards ts held))) :
    Ends (onDocument x) s (fun _ => Sound closed ts) (Sound closed ts) :=
  (ends_onDocument h.overSelf (hx s.held s.document ⟨rfl, h.store⟩)).mono
    (fun _ _ ho => h.of_over ho) fun _ ho => h.of_over ho

/-- **An operation on the store that keeps the guarded trees and the held nodes.** -/
theorem onStore (h : s.Sound closed ts) {x : StoreM α}
    (hx : ∀ held st, st.Guards ts held →
      Ends x st (fun _ => Store.Guards ts held) (Store.Guards ts held)) :
    Ends (Scene.onDocument (Document.onStore x)) s (fun _ => Sound closed ts) (Sound closed ts) :=
  h.onDocument fun held d hd => Document.ends_onStore hd.listeners (hx held d.store hd.store)

/-- An operation that gives a live node outside the templates. -/
theorem onStore_new (h : s.Sound closed ts) {x : StoreM NodeRef}
    (hx : ∀ held st, st.Guards ts held →
      Ends x st (fun r st => st.Guards ts (r :: held) ∧ r ∉ Store.refsOf ts) (Store.Guards ts held)) :
    Ends (Scene.onDocument (Document.onStore x)) s
      (fun r s => s.Sound closed ts ∧ s.store.Live r ∧ r ∉ Store.refsOf ts) (Sound closed ts) := by
  refine (ends_onStore h.overSelf (hx s.held s.store h.store)).mono (fun r s' ho => ?_)
    fun _ ho => h.of_over ho
  obtain ⟨⟨hl, hg, hr⟩, hb, ht, hc⟩ := ho
  have hsub := hg.weaken (List.Subset.refl ts) (List.subset_cons_self r s.held)
  exact ⟨h.of_over ⟨⟨hl, hsub⟩, hb, ht, hc⟩, hg.live r List.mem_cons_self, hr⟩

/-! ## Ids -/

theorem tie (h : s.Sound closed ts) (id : NodeId) (hl : s.store.Live r) (hr : r ∉ Store.refsOf ts) :
    Sound closed ts { s with bindings := s.bindings.bind id r } := by
  have hsub : ({ s with bindings := s.bindings.bind id r } : Scene κ).held ⊆ r :: s.held := by
    intro x hx
    rcases List.mem_append.mp hx with hx | hx
    · rcases List.mem_cons.mp (Bindings.nodes_bind_subset _ _ _ hx) with rfl | hx
      · exact List.mem_cons_self
      · exact List.mem_cons_of_mem _ (List.mem_append_left _ hx)
    · exact List.mem_cons_of_mem _ (List.mem_append_right _ hx)
  have hstore : s.store.Guards ts (r :: s.held) :=
    ⟨h.store.wellFormed, h.store.tops, List.forall_mem_cons.mpr ⟨hl, h.store.live⟩⟩
  have hquiet : ∀ x ∈ r :: s.held, x ∉ Store.refsOf ts := List.forall_mem_cons.mpr ⟨hr, h.quiet⟩
  exact ⟨hstore.weaken (List.Subset.refl ts) hsub, h.bindings.bind id r, h.listeners,
    fun hclosed => ⟨(h.counted hclosed).ours, (h.counted hclosed).callbacks⟩, h.templates, h.separate,
    fun x hx => hquiet x (hsub hx), h.outside⟩

theorem release (h : s.Sound closed ts) (id : NodeId) :
    Sound closed ts { s with bindings := s.bindings.release id } := by
  have hsub : ({ s with bindings := s.bindings.release id } : Scene κ).held ⊆ s.held := by
    intro x hx
    rcases List.mem_append.mp hx with hx | hx
    · exact List.mem_append_left _ (Bindings.nodes_release_subset _ _ hx)
    · exact List.mem_append_right _ hx
  exact ⟨h.store.weaken (List.Subset.refl ts) hsub, h.bindings.release id, h.listeners,
    fun hclosed => ⟨(h.counted hclosed).ours, (h.counted hclosed).callbacks⟩, h.templates, h.separate,
    fun x hx => h.quiet x (hsub hx), h.outside⟩

end Sound

/-! ## Listeners that are taken away -/

theorem delegateHandler_ne_handler (c : CallbackId) : delegateHandler ≠ c.handler := by
  intro he
  have h1 := Handler.ofId_handler c
  rw [← he, Handler.ofId_delegateHandler] at h1
  exact absurd h1 (by simp)

/-- A listener fewer is a listener fewer for its closure. -/
theorem tallies_dropListener {t : CallbackTable κ} {l : Listener} {n : CallbackId → Nat} (ho : Ours l)
    (ht : t.Tallies fun c => n c + if l.handler = c.handler then 1 else 0) :
    (dropListener t l).Tallies n := by
  rcases ho.2 with hd | ⟨c, hc⟩
  · have hn : (fun c : CallbackId => n c + if l.handler = c.handler then 1 else 0) = n := by
      funext c
      rw [if_neg (hd ▸ delegateHandler_ne_handler c), Nat.add_zero]
    rw [hn] at ht
    rw [dropListener, hd, Handler.ofId_delegateHandler]
    exact ht
  · obtain ⟨k, t', hk, ht'⟩ := ht.detach (c := c) (by rw [if_pos hc]; exact Nat.succ_pos _)
    have hn : Function.update (fun c : CallbackId => n c + if l.handler = c.handler then 1 else 0) c
        (n c + (if l.handler = c.handler then 1 else 0) - 1) = n := by
      funext d
      by_cases hdc : d = c
      · rw [hdc, Function.update_self, if_pos hc, Nat.add_sub_cancel]
      · have hne : l.handler ≠ d.handler := fun he =>
          hdc (CallbackId.handler_injective (he.symm.trans hc))
        rw [Function.update_of_ne hdc, if_neg hne, Nat.add_zero]
    rw [hn] at ht'
    rw [dropListener, hc, Handler.ofId_handler]
    simp only [hk]
    exact ht'

theorem tallies_foldl_dropListener {t : CallbackTable κ} {ls : List Listener} {n : CallbackId → Nat}
    (ho : ∀ l ∈ ls, Ours l) (ht : t.Tallies fun c => n c + ls.countP (·.handler == c.handler)) :
    (ls.foldl dropListener t).Tallies n := by
  induction ls generalizing t with
  | nil => exact ht
  | cons l ls ih =>
    have ho' := List.forall_mem_cons.mp ho
    rw [List.foldl_cons]
    refine ih ho'.2 (tallies_dropListener ho'.1 ?_)
    convert ht using 2 with c
    rw [List.countP_cons, Nat.add_assoc]
    simp

theorem strip_bindings (s : Scene κ) (r : NodeRef) :
    (s.bindings.idOf? r = none ∧ (s.strip r).bindings = s.bindings) ∨
      ∃ id, s.bindings.idOf? r = some id ∧ (s.strip r).bindings = s.bindings.release id := by
  cases hi : s.bindings.idOf? r with
  | none => exact Or.inl ⟨rfl, by simp only [strip, hi]⟩
  | some id => exact Or.inr ⟨id, rfl, by simp only [strip, hi]⟩

theorem held_strip_subset (s : Scene κ) (r : NodeRef) : (s.strip r).held ⊆ s.held := by
  intro x hx
  rcases List.mem_append.mp hx with hx | hx
  · refine List.mem_append_left _ ?_
    rcases s.strip_bindings r with ⟨-, hb⟩ | ⟨id, -, hb⟩
    · exact hb ▸ hx
    · rw [hb] at hx
      exact Bindings.nodes_release_subset _ _ hx
  · exact List.mem_append_right _ (Registry.nodes_takeAll_subset _ r hx)

theorem Counted.strip (h : s.Counted) (r : NodeRef) : (s.strip r).Counted := by
  have hperm := s.document.listeners.perm_takeAll r
  refine ⟨fun l hl => h.ours l (hperm.mem_iff.mpr (List.mem_append_right _ hl)), ?_⟩
  refine tallies_foldl_dropListener (fun l hl => h.ours l (hperm.mem_iff.mpr (List.mem_append_left _ hl))) ?_
  convert h.callbacks using 2 with c
  rw [Registry.uses, Registry.uses, hperm.countP_eq, List.countP_append, Nat.add_comm]
  rfl

namespace Sound

theorem strip (h : s.Sound closed ts) (r : NodeRef) : (s.strip r).Sound closed ts := by
  have hsub := held_strip_subset s r
  refine ⟨h.store.weaken (List.Subset.refl ts) hsub, ?_, h.listeners.takeAll r,
    fun hclosed => (h.counted hclosed).strip r, h.templates, h.separate,
    fun x hx => h.quiet x (hsub hx), h.outside⟩
  rcases s.strip_bindings r with ⟨-, hb⟩ | ⟨id, -, hb⟩
  · exact hb ▸ h.bindings
  · exact hb ▸ h.bindings.release id

theorem notMem_held_strip (h : s.Sound closed ts) (r : NodeRef) : r ∉ (s.strip r).held := by
  intro hr
  rcases List.mem_append.mp hr with hr | hr
  · rcases s.strip_bindings r with ⟨hi, hb⟩ | ⟨id, hi, hb⟩
    · exact h.bindings.idOf?_eq_none_iff.mp hi (hb ▸ hr)
    · exact h.bindings.notMem_nodes_release hi (hb ▸ hr)
  · exact h.listeners.notMem_takeAll r hr

/-- **Without their ids and listeners nodes are not held.** -/
theorem foldl_strip (h : s.Sound closed ts) (rs : List NodeRef) :
    (rs.foldl Scene.strip s).Sound closed ts ∧ (rs.foldl Scene.strip s).store = s.store ∧
      (rs.foldl Scene.strip s).held ⊆ s.held ∧ ∀ r ∈ rs, r ∉ (rs.foldl Scene.strip s).held := by
  induction rs generalizing s with
  | nil => exact ⟨h, rfl, List.Subset.refl _, by simp⟩
  | cons r rs ih =>
    obtain ⟨h1, h2, h3, h4⟩ := ih (h.strip r)
    refine ⟨h1, h2, List.Subset.trans h3 (held_strip_subset s r), ?_⟩
    exact List.forall_mem_cons.mpr ⟨fun hr => h.notMem_held_strip r (h3 hr), h4⟩

end Sound

end DomHost.Scene
