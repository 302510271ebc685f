import DomHost.Proofs.Scene.Coherent
import DomHost.Proofs.Store.Losses

/-!
# Instructions and the listeners that catch events

What catches events for the compute module is on a node until the node is freed. There is one exception: the
document cannot be freed, but when that is asked for its tree loses its listeners all the same.

* `Scene.SameDelegates`, `Scene.Releases`, `Scene.Attends`: what operations do to these listeners;
* `Scene.attends_bind`: nodes that are created first, and others that are freed then;
* `Scene.releases_releaseSubtree`, `Scene.attends_setTextContent`: single operations;
* `Scene.Strips`: the exception;
* **`Scene.attendsBut_execute`**: one instruction.
-/

namespace DomHost

namespace Scene

variable {κ α β : Type} {s t u : Scene κ} {r x : NodeRef} {id : NodeId} {i : Instruction}
  {P : Scene κ → Scene κ → Prop}

/-- A coherent scene becomes another one to which it is related. -/
def Coherently (P : Scene κ → Scene κ → Prop) (s t : Scene κ) : Prop := s.Coherent → t.Coherent ∧ P s t

/-- Every node has the same listeners that catch events. -/
def SameDelegates (s t : Scene κ) : Prop := ∀ x, t.delegates x = s.delegates x

/-- Nodes are gone, and those that are left have the same listeners that catch events. -/
structure Releases (s t : Scene κ) : Prop where
  delegates : ∀ x, t.store.Live x → t.delegates x = s.delegates x
  store : s.store.Loses t.store

/-- Every live node has the listeners that catch events which it had before. -/
def Attends (s t : Scene κ) : Prop := ∀ x, t.store.Live x → t.delegates x = s.delegates x

theorem lasting_coherently (hP : DomHost.Lasting P) : DomHost.Lasting (Coherently P) where
  refl s h := ⟨h, hP.refl s⟩
  trans h h' hs :=
    have ⟨ht, hst⟩ := h hs
    have ⟨hu, htu⟩ := h' ht
    ⟨hu, hP.trans hst htu⟩

theorem lasting_same : DomHost.Lasting (Coherently (SameDelegates (κ := κ))) :=
  lasting_coherently ⟨fun _ _ => rfl, fun h h' x => (h' x).trans (h x)⟩

theorem lasting_releases : DomHost.Lasting (Coherently (Releases (κ := κ))) :=
  lasting_coherently ⟨fun s => ⟨fun _ _ => rfl, Store.lasting_loses.refl s.store⟩, fun h h' =>
    ⟨fun x hx => (h'.delegates x hx).trans (h.delegates x (h'.store.live hx)),
      Store.lasting_loses.trans h.store h'.store⟩⟩

theorem Coherently.mono {Q : Scene κ → Scene κ → Prop} (h : ∀ s t, P s t → Q s t) (s t : Scene κ)
    (hst : Coherently P s t) : Coherently Q s t := fun hs => (hst hs).imp_right (h s t)

section

variable {x : SceneM κ α} {f : α → SceneM κ β}

theorem attends_of_same (hx : Keeps (Coherently SameDelegates) x) : Keeps (Coherently Attends) x :=
  hx.mono (Coherently.mono fun _ _ h y _ => h y)

theorem attends_of_releases (hx : Keeps (Coherently Releases) x) : Keeps (Coherently Attends) x :=
  hx.mono (Coherently.mono fun _ _ h => h.delegates)

/-- What comes first may create nodes, and what comes behind it may free some. -/
theorem attends_bind (hx : Keeps (Coherently SameDelegates) x)
    (hf : ∀ a, Keeps (Coherently Releases) (f a)) : Keeps (Coherently Attends) (x >>= f) := by
  refine hx.seq hf (Coherently.mono fun _ _ h y _ => h y) fun s t u hst htu hs => ?_
  obtain ⟨ht, hsame⟩ := hst hs
  obtain ⟨hu, hrel⟩ := htu ht
  exact ⟨hu, fun y hy => (hrel.delegates y hy).trans (hsame y)⟩

/-- Only what becomes of coherent scenes matters. -/
theorem keeps_coherently
    (hx : ∀ s, s.Coherent → Ends x s (fun _ => Coherently P s) (Coherently P s)) :
    Keeps (Coherently P) x := by
  intro s
  by_cases hs : s.Coherent
  · exact hx s hs
  · exact Ends.trivial.mono (fun _ _ _ h => absurd h hs) fun _ _ h => absurd h hs

end

/-! ## Operations on the document -/

theorem same_of_over {Q : Store → Prop} (ho : Over s Q t) : s.SameDelegates t := fun x => by
  rw [delegates, ho.document.listeners, delegates]

/-- An operation on the document that leaves its listeners alone, and frees no node. -/
theorem same_onDocument {x : DocumentM α}
    (hx : ∀ g held d, d.Over g (Store.Guards [] held) →
      Ends x d (fun _ => Document.Over g (Store.Guards [] held)) (Document.Over g (Store.Guards [] held))) :
    Keeps (Coherently (SameDelegates (κ := κ))) (onDocument x) := by
  refine keeps_coherently fun s hs => ?_
  have ho : Over s (Store.Guards [] s.document.listeners.nodes) s :=
    ⟨⟨rfl, hs.document.guards⟩, rfl, rfl, rfl⟩
  exact (ends_onDocument ho (hx _ _ _ ho.document)).mono
    (fun _ _ ho hs => ⟨hs.of_over ho, same_of_over ho⟩) fun _ ho hs => ⟨hs.of_over ho, same_of_over ho⟩

theorem same_onStore {x : StoreM α}
    (hx : ∀ held st, Store.Guards [] held st →
      Ends x st (fun _ => Store.Guards [] held) (Store.Guards [] held)) :
    Keeps (Coherently (SameDelegates (κ := κ))) (onDocument (Document.onStore x)) :=
  same_onDocument fun _ held d hd => Document.ends_onStore hd.listeners (hx held d.store hd.store)

/-- A new node. -/
theorem same_onStore_new {x : StoreM NodeRef}
    (hx : ∀ held st, Store.Guards [] held st →
      Ends x st (fun r st => st.Guards [] (r :: held) ∧ r ∉ Store.refsOf []) (Store.Guards [] held)) :
    Keeps (Coherently (SameDelegates (κ := κ))) (onDocument (Document.onStore x)) :=
  same_onStore fun held st hg => (hx held st hg).mono
    (fun r _ h => h.1.weaken (List.Subset.refl _) (List.subset_cons_self r held)) fun _ h => h

theorem same_newElement (tag : String) (ns : Option String) :
    Keeps (Coherently (SameDelegates (κ := κ))) (newElement tag ns) := by
  unfold newElement
  cases ns with
  | some ns => exact same_onStore_new fun _ _ hg => hg.createElementNs (some ns) tag
  | none =>
    refine .bind lasting_same (same_onDocument fun _ _ _ hd => ?_) fun _ => ?_
    · exact Ends.liftResult (fun _ _ => hd) hd
    · exact same_onStore_new fun _ _ hg => hg.create rfl

theorem same_writeAttribute (r : NodeRef) (name value : String) (ns : Option String) :
    Keeps (Coherently (SameDelegates (κ := κ))) (writeAttribute r name value ns) := by
  cases ns with
  | some ns =>
    exact same_onStore fun _ _ hg => hg.setAttributeNs Store.notMem_refsOf_nil (some ns) name value
  | none => exact same_onStore fun _ _ hg => hg.setAttribute Store.notMem_refsOf_nil name value

theorem same_setProperty (r : NodeRef) (property : Property) (value : String) :
    Keeps (Coherently (SameDelegates (κ := κ))) (onDocument (Document.setProperty r property value)) :=
  same_onDocument fun _ _ _ hd => Document.ends_setProperty hd Store.notMem_refsOf_nil property value

/-! ## Ids -/

theorem same_tie (id : NodeId) (r : NodeRef) : Keeps (Coherently (SameDelegates (κ := κ))) (tie id r) :=
  .modify fun _ hs => ⟨hs.withBindings (hs.bindings.bind id r), fun _ => rfl⟩

theorem same_tieSlots (tm : Template) (root : NodeRef) (slots : List (List Nat × NodeId)) :
    Keeps (Coherently (SameDelegates (κ := κ))) (tieSlots tm root slots) := by
  induction slots with
  | nil => exact .pure lasting_same _
  | cons slot rest ih =>
    obtain ⟨path, id⟩ := slot
    refine Keeps.get_bind fun s => ?_
    split
    · exact .bind lasting_same (same_tie id _) fun _ => ih
    · exact .throw_bind lasting_same _ _

theorem same_instantiate (number : UInt32) (ids : List NodeId) :
    Keeps (Coherently (SameDelegates (κ := κ))) (instantiate number ids) := by
  refine Keeps.get_bind fun s => ?_
  split
  · exact .throw lasting_same _
  · rename_i tm _
    refine .ite (.throw_bind lasting_same _ _) ?_
    refine .bind lasting_same (same_onStore_new fun _ _ hg => hg.cloneSubtree) fun root => ?_
    exact .bind lasting_same (same_tieSlots tm root _) fun _ => .pure lasting_same root

/-! ## Giving up nodes -/

/-- Freeing a tree takes no listeners off nodes that stay, unless it is that of the document. -/
theorem releases_releaseSubtree (hr : r ≠ .root) :
    Keeps (Coherently (Releases (κ := κ))) (releaseSubtree r) := by
  refine keeps_coherently fun s hs => (hs.ends_releaseSubtree r).mono ?_ ?_
  · rintro _ t ⟨ht, ⟨-, hstore⟩, hd⟩ -
    refine ⟨ht, fun x hx => ?_, hstore ▸ hs.wellFormed.distinct.loses_without r⟩
    have hstay : x ∉ s.store.descendants r :=
      (hs.wellFormed.distinct.live_without.mp (hstore ▸ hx)).2
    rw [hd, if_neg hstay]
  · rintro t ⟨ht, ⟨hn, hstore⟩, hd⟩ -
    refine ⟨ht, fun x _ => ?_, hstore ▸ Store.lasting_loses.refl _⟩
    rw [hd, if_neg fun hx => hn ⟨?_, hr⟩]
    exact Store.live_of_mem_ancestors (hs.wellFormed.mem_ancestors hx)

theorem releases_releaseChildren (r : NodeRef) :
    Keeps (Coherently (Releases (κ := κ))) (releaseChildren r) := by
  refine keeps_coherently fun s hs => Ends.get_bind ?_
  refine Ends.forM (I := Coherently Releases s) (fun c hc t hst => ?_) (lasting_releases.refl s)
  have hne := hs.wellFormed.ne_root_of_parent? (hs.wellFormed.parent?_eq_some_iff.mpr hc)
  exact (releases_releaseSubtree hne t).mono (fun _ _ h => lasting_releases.trans hst h)
    fun _ h => lasting_releases.trans hst h

theorem releases_reclaim (r : NodeRef) : Keeps (Coherently (Releases (κ := κ))) (reclaim r) := by
  refine keeps_coherently fun s hs => Ends.get_bind (Ends.ite (fun ho => ?_) fun _ => ?_)
  · exact releases_releaseSubtree ((isOrphan_iff hs.wellFormed).mp ho).1 s
  · exact Ends.pure (lasting_releases.refl s)

theorem releases_modify {f : Bindings → Bindings} (hf : ∀ b, b.OneToOne → (f b).OneToOne) :
    Keeps (Coherently Releases) (modify fun s => { s with bindings := f s.bindings } : SceneM κ Unit) :=
  .modify fun _ hs => ⟨hs.withBindings (hf _ hs.bindings), fun _ _ => rfl, Store.lasting_loses.refl _⟩

theorem releases_bind (id : NodeId) (r : NodeRef) :
    Keeps (Coherently (Releases (κ := κ))) (bind id r) := by
  refine Keeps.get_bind fun s => .bind lasting_releases (releases_modify fun _ h => h.bind id r) fun _ => ?_
  cases (s.bindings.get? id).filter (· != r) with
  | none => exact .pure lasting_releases _
  | some old => exact releases_reclaim old

/-! ## Templates -/

theorem same_assemble (total : Nat) (ds : List Descriptor) :
    Keeps (Coherently (SameDelegates (κ := κ))) (assemble total ds {}) := by
  refine keeps_coherently fun s hs => ?_
  have hstart : Over s (Store.Building s.store.forest.tops s.document.listeners.nodes []) s :=
    ⟨⟨rfl, .start ⟨hs.document.store, fun _ ht => ht, hs.document.live⟩⟩, rfl, rfl, rfl⟩
  have hover : ∀ {t}, Over s (Store.Guards s.store.forest.tops s.document.listeners.nodes) t →
      Coherently SameDelegates s t := fun ho _ =>
    ⟨hs.of_over ⟨ho.document.mono fun _ hg => hg.weaken (List.nil_subset _) (List.Subset.refl _),
      ho.bindings, ho.templates, ho.callbacks⟩, same_of_over ho⟩
  exact (ends_assemble total ds hstart).mono (fun _ _ ho => hover (over_guards ho)) fun _ => hover

theorem releases_freeSubtree (r : NodeRef) :
    Keeps (Coherently (Releases (κ := κ))) (onDocument (Document.freeSubtree r)) := by
  refine keeps_coherently fun s hs => (ends_onDocument_with (hs.document.ends_freeSubtree r)).mono ?_ ?_
  · rintro _ _ ⟨d, rfl, hd, -, hstore, hl⟩ -
    refine ⟨⟨hd, hs.bindings, fun l hm => ?_⟩, fun x hx => ?_, ?_⟩
    · change l ∈ d.listeners.installed at hm
      rw [hl] at hm
      exact hs.ours l (Registry.installed_clear_subset _ _ hm)
    · change d.store.Live x at hx
      change d.listeners.delegates x = s.document.listeners.delegates x
      rw [hstore] at hx
      rw [hl, hs.document.listeners.delegates_clear,
        if_neg (hs.document.store.distinct.live_without.mp hx).2]
    · change s.document.store.Loses d.store
      rw [hstore]
      exact hs.wellFormed.distinct.loses_without r
  · rintro _ ⟨d, rfl, hstore, hl, -⟩ -
    refine ⟨⟨hs.document.of_same hstore hl, hs.bindings, fun l hm => hs.ours l (hl ▸ hm)⟩, fun x _ => ?_, ?_⟩
    · exact congrArg (Registry.delegates · x) hl
    · change s.document.store.Loses d.store
      rw [hstore]
      exact Store.lasting_loses.refl _

theorem attends_saveTemplate (number : UInt32) (ds : List Descriptor) :
    Keeps (Coherently (Attends (κ := κ))) (saveTemplate number ds) := by
  refine Keeps.get_bind fun s => .ite ?_ (attends_bind (same_assemble ds.length ds) fun a => ?_)
  · exact attends_of_same (.pure lasting_same _)
  · split
    · refine .bind lasting_releases (.modify fun s hs => ?_) fun _ => ?_
      · exact ⟨⟨hs.document, hs.bindings, hs.ours⟩, fun _ _ => rfl, Store.lasting_loses.refl _⟩
      · split
        · exact (releases_freeSubtree _).discard
        · exact .pure lasting_releases _
    · exact .throw lasting_releases _

/-! ## Instructions that give up nodes -/

theorem releases_replaceChildren (r : NodeRef) (children : List NodeRef) :
    Keeps (Coherently (Releases (κ := κ))) (onDocument (Document.replaceChildren r children)) := by
  have hretains := Document.keeps_replaceChildren Store.lasting_retains Store.retains_scatter
    (fun _ _ _ before hi => Store.retains_place hi before) r children
  have hsame := same_onDocument (κ := κ) fun g held d (hd : d.Over g (Store.Guards [] held)) =>
    Document.ends_replaceChildren hd (r := r) Store.notMem_refsOf_nil
      fun c (_ : c ∈ children) => Store.notMem_refsOf_nil
  refine keeps_coherently fun s hs => ((hsame s).and (ends_onDocument_with (hretains s.document))).mono ?_ ?_
  · rintro _ t ⟨ht, d, rfl, hd⟩ -
    exact ⟨(ht hs).1, fun x _ => (ht hs).2 x, hd.loses hs.wellFormed.distinct⟩
  · rintro t ⟨ht, d, rfl, hd⟩ -
    exact ⟨(ht hs).1, fun x _ => (ht hs).2 x, hd.loses hs.wellFormed.distinct⟩

/-- A text is the only new node behind the nodes that were freed for it, and none of them. -/
theorem attends_setTextContent (r : NodeRef) (text : String) :
    Keeps (Coherently (Attends (κ := κ)))
      (releaseChildren r >>= fun _ => onDocument (Document.onStore (Store.setTextContent r text))) := by
  refine keeps_coherently fun s hs => ?_
  refine ((releases_releaseChildren r s).mono (fun _ _ ht => ht) fun t ht hs => ?_).bind fun _ t ht => ?_
  · exact ⟨(ht hs).1, (ht hs).2.delegates⟩
  obtain ⟨hw, hdelegates, hloses⟩ := ht hs
  have hsame := same_onStore (κ := κ) (fun held st (hg : st.Guards [] held) =>
    hg.setTextContent Store.notMem_refsOf_nil (r := r) text) t
  have hnew := ends_onDocument_with (s := t) (Document.ends_onStore rfl
    (Store.ends_setTextContent_new hw.document.store r text))
  refine (hsame.and hnew).mono ?_ ?_
  · rintro _ u ⟨hu, d, rfl, -, hd⟩ -
    refine ⟨(hu hw).1, fun x hx => ((hu hw).2 x).trans ?_⟩
    rcases hd x hx with hx | rfl
    · exact hdelegates x hx
    · have hafter := hw.delegates_eq_nil ((Store.lasting_loses.refl _).not_live_draw hw.wellFormed)
      exact hafter.trans (hs.delegates_eq_nil (hloses.not_live_draw hs.wellFormed)).symm
  · rintro u ⟨hu, d, rfl, -, hd⟩ -
    refine ⟨(hu hw).1, fun x hx => ((hu hw).2 x).trans (hdelegates x ?_)⟩
    change d.store.Live x at hx
    rwa [hd] at hx

theorem attends_assign (r : NodeRef) (property : Property) (value : String) :
    Keeps (Coherently (Attends (κ := κ))) (assign r property value) := by
  have hset := fun p => attends_of_same (same_setProperty (κ := κ) r p value)
  cases property with
  | innerHtml =>
    refine attends_bind (same_onDocument fun _ _ _ hd => ?_) fun parsed => ?_
    · exact (Document.ends_addFragment hd r value).mono (fun _ _ ho => ho.mono fun _ h => h.1) fun _ h => h
    · exact .bind lasting_releases (releases_releaseChildren r) fun _ => releases_replaceChildren r parsed
  | textContent => exact attends_setTextContent r value
  | className => exact hset .className
  | value => exact hset .value
  | checked => exact hset .checked

theorem attends_replace (old : NodeRef) (nodes : List NodeRef) :
    Keeps (Coherently (Attends (κ := κ))) (replace old nodes) := by
  refine keeps_coherently fun s hs => Ends.get_bind ?_
  refine attends_bind (same_onStore fun _ _ hg => ?_) (fun _ => ?_) s
  · exact hg.replaceWith Store.notMem_refsOf_nil fun _ _ => Store.notMem_refsOf_nil
  · by_cases hattached : (s.store.parent? old).isSome = true
    · obtain ⟨p, hp⟩ := Option.isSome_iff_exists.mp hattached
      have hne := hs.wellFormed.ne_root_of_parent? hp
      exact .ite (releases_releaseSubtree hne) (.pure lasting_releases _)
    · rw [Bool.not_eq_true] at hattached
      rw [hattached, Bool.false_and, if_neg Bool.false_ne_true]
      exact .pure lasting_releases _

/-! ## Listeners that call closures -/

theorem same_callbacks (c : CallbackTable κ) :
    Keeps (Coherently SameDelegates) (modify fun s => { s with callbacks := c } : SceneM κ Unit) :=
  .modify fun _ hs => ⟨hs.withCallbacks c, fun _ => rfl⟩

theorem same_listen (r : NodeRef) (name : String) (c : CallbackId) (capture : Bool) :
    Keeps (Coherently (SameDelegates (κ := κ))) (listen r name c capture) := by
  have hadd : Keeps (Coherently (SameDelegates (κ := κ)))
      (onDocument (Document.addListener r ⟨name, c.handler, { capture }⟩)) :=
    keeps_coherently fun s hs => by
      refine (ends_onDocument_with (Document.ends_addListener s.document r _)).mono ?_ ?_
      · rintro _ _ ⟨_, rfl, hr, -, rfl⟩ -
        exact ⟨hs.add hr ⟨rfl, Or.inr ⟨c, rfl⟩⟩, fun x =>
          Registry.delegates_add_of_ne hs.document.listeners.nodes (delegateHandler_ne_handler c).symm r x⟩
      · rintro _ ⟨_, rfl, rfl⟩
        exact lasting_same.refl s
  refine Keeps.get_bind fun s => ?_
  split
  · refine .bind lasting_same hadd fun _ => .ite (Keeps.get_bind fun s => ?_) (.pure lasting_same _)
    split
    · exact same_callbacks _
    · exact .throw lasting_same _
  · exact .throw_bind lasting_same _ _

theorem same_unlisten (r : NodeRef) (name : String) (c : CallbackId) (capture : Bool) :
    Keeps (Coherently (SameDelegates (κ := κ))) (unlisten r name c capture) := by
  have hremove : Keeps (Coherently (SameDelegates (κ := κ)))
      (onDocument (Document.removeListener r name c.handler capture)) :=
    keeps_coherently fun s hs => by
      refine (ends_onDocument_with (Document.ends_removeListener s.document r name _ capture)).mono ?_ ?_
      · rintro _ _ ⟨_, rfl, -, -, rfl⟩ -
        exact ⟨hs.remove r name c.handler capture, Registry.delegates_remove_of_ne
          hs.document.listeners.nodes (delegateHandler_ne_handler c).symm r name capture⟩
      · rintro _ ⟨_, rfl, rfl⟩
        exact lasting_same.refl s
  refine .bind lasting_same hremove fun _ => .ite (Keeps.get_bind fun s => ?_) (.pure lasting_same _)
  split
  · exact same_callbacks _
  · exact .pure lasting_same _

/-! ## Instructions -/

/-- Does the instruction take the listeners off a node without freeing it? The one that removes a tree does
so to that of the document, which cannot be freed. -/
def Strips (s : Scene κ) (x : NodeRef) : Instruction → Prop
  | .remove id => s.bindings.get? id = some .root ∧ s.store.isInclusiveAncestor .root x = true
  | _ => False

instance (s : Scene κ) (x : NodeRef) : (i : Instruction) → Decidable (s.Strips x i) := fun i => by
  unfold Strips
  split <;> infer_instance

section With

variable (hP : ∀ s, P s s)
include hP

theorem keeps_withNode {f : NodeRef → SceneM κ Unit} (hf : ∀ r, Keeps (Coherently P) (f r)) :
    Keeps (Coherently P) (node id >>= f) :=
  fun s => ends_withNode (fun hs => ⟨hs, hP s⟩) fun r _ => hf r s

theorem keeps_withNodes {ids : List NodeId} {f : List NodeRef → SceneM κ Unit}
    (hf : ∀ rs, Keeps (Coherently P) (f rs)) : Keeps (Coherently P) (nodes ids >>= f) :=
  fun s => ends_withNodes (fun hs => ⟨hs, hP s⟩) fun rs _ => hf rs s

end With

/-- **No other instruction takes listeners that catch events off a node that stays.** -/
theorem attends_execute {i : Instruction} (hi : ∀ id, i ≠ .remove id) :
    Keeps (Coherently (Attends (κ := κ))) (execute i) := by
  have hsame : ∀ s : Scene κ, s.SameDelegates s := fun _ _ => rfl
  have hattends : ∀ s : Scene κ, s.Attends s := fun _ _ _ => rfl
  cases i with
  | createElement id tag ns => exact attends_bind (same_newElement tag ns) (releases_bind id)
  | createText id text =>
    exact attends_bind (same_onStore_new fun _ _ hg => hg.create rfl) (releases_bind id)
  | createPlaceholder id =>
    exact attends_bind (same_onStore_new fun _ _ hg => hg.create rfl) (releases_bind id)
  | loadTemplate template id slots =>
    exact attends_bind (same_instantiate template slots) (releases_bind id)
  | saveTemplate template nodes => exact attends_saveTemplate template nodes
  | bindElementById id domId =>
    refine Keeps.get_bind fun s => ?_
    split
    · exact attends_of_releases (releases_bind id _)
    · exact attends_of_same (.throw lasting_same _)
  | setAttribute id name value ns =>
    exact attends_of_same (keeps_withNode hsame fun r => same_writeAttribute r name value ns)
  | removeAttribute id name ns =>
    exact attends_of_same (keeps_withNode hsame fun r =>
      same_onStore fun _ _ hg => hg.removeAttribute Store.notMem_refsOf_nil ns name)
  | toggleAttribute id name force =>
    exact attends_of_same (keeps_withNode hsame fun r => Keeps.discard <|
      same_onStore fun _ _ hg => hg.toggleAttribute Store.notMem_refsOf_nil name force)
  | setStyle id property value =>
    exact attends_of_same (keeps_withNode hsame fun r =>
      same_onStore fun _ _ hg => hg.updateElement Store.notMem_refsOf_nil _)
  | setProperty id property value =>
    exact keeps_withNode hattends fun r => attends_assign r property value
  | appendChildren parent children =>
    refine attends_of_same (keeps_withNode hsame fun r => keeps_withNodes hsame fun rs => ?_)
    refine .forM lasting_same (fun c => same_onStore fun _ _ hg => ?_) rs
    exact hg.insertBefore Store.notMem_refsOf_nil Store.notMem_refsOf_nil none
  | insertBefore reference ids =>
    refine attends_of_same (keeps_withNode hsame fun r => keeps_withNodes hsame fun rs => ?_)
    exact same_onStore fun _ _ hg =>
      hg.insertAllBefore Store.notMem_refsOf_nil fun _ _ => Store.notMem_refsOf_nil
  | insertAfter reference ids =>
    refine attends_of_same (keeps_withNode hsame fun r => keeps_withNodes hsame fun rs => ?_)
    exact same_onStore fun _ _ hg =>
      hg.insertAfter Store.notMem_refsOf_nil fun _ _ => Store.notMem_refsOf_nil
  | remove id => exact absurd rfl (hi id)
  | replaceWith id ids =>
    exact keeps_withNode hattends fun r => keeps_withNodes hattends fun rs => attends_replace r rs
  | freeId id =>
    refine Keeps.get_bind fun s => ?_
    split
    · refine attends_of_releases (.bind lasting_releases (releases_modify fun _ h => h.release id) fun _ => ?_)
      exact releases_reclaim _
    · exact attends_of_same (.pure lasting_same _)
  | addListener id name callback capture =>
    exact attends_of_same (keeps_withNode hsame fun r => same_listen r name callback capture)
  | removeListener id name callback capture =>
    exact attends_of_same (keeps_withNode hsame fun r => same_unlisten r name callback capture)

/-- A live node has the listeners that catch events which it had, unless the instruction has stripped it. -/
def AttendsBut (i : Instruction) (s t : Scene κ) : Prop :=
  ∀ x, t.store.Live x → t.delegates x = if s.Strips x i then [] else s.delegates x

theorem not_strips (h : ∀ j, s.bindings.get? j = some .root → i ≠ .remove j) : ¬ s.Strips x i := by
  cases i with
  | remove j => exact fun hs => h j hs.1 rfl
  | _ => exact not_false

/-- An instruction that strips no node. -/
theorem attendsBut_of_attends (h : s.Attends t) (hi : ∀ j, s.bindings.get? j = some .root → i ≠ .remove j) :
    AttendsBut i s t := fun x hx => (h x hx).trans (if_neg (not_strips hi)).symm

/-- A tree that is asked to be removed is freed, or loses its listeners if it is that of the document. -/
theorem attendsBut_remove (id : NodeId) :
    Keeps (Coherently (AttendsBut (κ := κ) (.remove id))) (execute (.remove id)) := by
  refine keeps_coherently fun s hs => ((ends_node s id).mono (fun _ _ hr => hr) ?_).bind ?_
  · rintro s ⟨rfl, hn⟩ -
    refine ⟨hs, attendsBut_of_attends (fun _ _ => rfl) fun j hj he => ?_⟩
    obtain rfl := Instruction.remove.inj he
    exact absurd (hn.symm.trans hj) (by simp)
  rintro r s ⟨rfl, hr⟩
  by_cases hroot : r = .root
  · subst hroot
    refine (hs.ends_releaseSubtree .root).mono ?_ ?_
    · rintro _ t ⟨-, ⟨hne, -⟩, -⟩
      exact absurd rfl hne
    · rintro t ⟨ht, -, hd⟩ -
      refine ⟨ht, fun x _ => (hd x).trans (if_congr ?_ rfl rfl)⟩
      rw [hs.wellFormed.mem_descendants_iff, ← List.contains_iff_mem]
      exact (and_iff_right hr).symm
  · refine (releases_releaseSubtree hroot s).mono (fun _ t ht hs => ?_) fun t ht hs => ?_
    all_goals
      refine ⟨(ht hs).1, attendsBut_of_attends (ht hs).2.delegates fun j hj he => hroot ?_⟩
      obtain rfl := Instruction.remove.inj he
      exact Option.some.inj (hr.symm.trans hj)

/-- **What an instruction does to the listeners that catch events.** -/
theorem attendsBut_execute (i : Instruction) : Keeps (Coherently (AttendsBut (κ := κ) i)) (execute i) := by
  by_cases hi : ∃ id, i = .remove id
  · obtain ⟨id, rfl⟩ := hi
    exact attendsBut_remove id
  · refine (attends_execute fun id he => hi ⟨id, he⟩).mono (Coherently.mono fun s t h => ?_)
    exact attendsBut_of_attends h fun j _ he => hi ⟨j, he⟩

/-- The parts of a scene agree after any instruction. -/
theorem Coherent.ends_execute (h : s.Coherent) (i : Instruction) :
    Ends (execute i) s (fun _ => Coherent) Coherent :=
  (attendsBut_execute i s).mono (fun _ _ ht => (ht h).1) fun _ ht => (ht h).1

/-! ## Several instructions -/

/-- Do instructions take no listeners off a node, which is live after each of them? -/
def Respects (s : Scene κ) (x : NodeRef) : List Instruction → Prop
  | [] => True
  | i :: rest => ¬ s.Strips x i ∧
    match execute i s with
    | .ok _ t => t.store.Live x ∧ t.Respects x rest
    | .error _ t => t.store.Live x

instance decidableRespects (s : Scene κ) (x : NodeRef) : (is : List Instruction) → Decidable (s.Respects x is)
  | [] => inferInstanceAs (Decidable True)
  | i :: rest =>
    have : Decidable (match execute i s with
        | .ok _ t => t.store.Live x ∧ t.Respects x rest
        | .error _ t => t.store.Live x) :=
      match execute i s with
      | .ok _ t =>
        have := decidableRespects t x rest
        inferInstanceAs (Decidable (t.store.Live x ∧ t.Respects x rest))
      | .error _ t => inferInstanceAs (Decidable (t.store.Live x))
    inferInstanceAs (Decidable (_ ∧ _))

theorem respects_of_ok {rest : List Instruction} (h : execute i s = .ok () t) :
    s.Respects x (i :: rest) ↔ (¬ s.Strips x i ∧ t.store.Live x) ∧ t.Respects x rest := by
  rw [Respects, h, and_assoc]

theorem respects_of_error {rest : List Instruction} {e : HostError} (h : execute i s = .error e t) :
    s.Respects x (i :: rest) ↔ ¬ s.Strips x i ∧ t.store.Live x := by
  rw [Respects, h]

/-- A node has the listeners that catch events which it had, or none if something else was to be expected. -/
def KeepsIf (p : Prop) (x : NodeRef) (s t : Scene κ) : Prop :=
  (p → t.delegates x = s.delegates x) ∧ (¬ p → t.delegates x = [])

theorem AttendsBut.keepsIf (h : AttendsBut i s t) (ht : t.Coherent) (x : NodeRef) :
    KeepsIf (¬ s.Strips x i ∧ t.store.Live x) x s t := by
  refine ⟨fun hx => (h x hx.2).trans (if_neg hx.1), fun hx => ?_⟩
  by_cases hl : t.store.Live x
  · exact (h x hl).trans (if_pos (not_not.mp fun hs => hx ⟨hs, hl⟩))
  · exact ht.delegates_eq_nil hl

theorem KeepsIf.trans {p q : Prop} (h : KeepsIf p x s t) (h' : KeepsIf q x t u) : KeepsIf (p ∧ q) x s u := by
  refine ⟨fun hpq => (h'.1 hpq.2).trans (h.1 hpq.1), fun hpq => ?_⟩
  by_cases hq : q
  · exact (h'.1 hq).trans (h.2 fun hp => hpq ⟨hp, hq⟩)
  · exact h'.2 hq

/-- **A node keeps its listeners through several instructions exactly if these respect it.** -/
theorem keepsIf_forM_execute (x : NodeRef) (is : List Instruction) :
    Keeps (Coherently fun s t : Scene κ => KeepsIf (s.Respects x is) x s t) (is.forM execute) := by
  induction is with
  | nil => exact fun s hs => ⟨hs, fun _ => rfl, fun hn => absurd trivial hn⟩
  | cons i rest ih =>
    refine keeps_coherently fun s hs => ?_
    have hone := attendsBut_execute i s
    change Ends (execute i >>= fun _ => rest.forM execute) s _ _
    unfold Ends at hone ⊢
    cases hi : execute i s with
    | error e t =>
      rw [hi] at hone
      rw [bind_of_error hi]
      refine fun _ => ⟨(hone hs).1, ?_⟩
      change KeepsIf _ x s t
      rw [respects_of_error hi]
      exact (hone hs).2.keepsIf (hone hs).1 x
    | ok a t =>
      rw [hi] at hone
      obtain ⟨ht, hattends⟩ := hone hs
      have hfirst := hattends.keepsIf ht x
      rw [bind_of_ok hi]
      refine (ih t).mono (fun _ u hu _ => ⟨(hu ht).1, ?_⟩) fun u hu _ => ⟨(hu ht).1, ?_⟩
      all_goals
        change KeepsIf _ x s u
        rw [respects_of_ok hi]
        exact hfirst.trans (hu ht).2

end Scene

end DomHost
