import DomHost.Edit.Execute
import DomHost.Proofs.Keeps

/-!
# Which parts of a scene change

A scene has four parts: the document, the ids, the templates and the closures. A relation between scenes
that allows any change of the parts an operation works on is kept by the operation, so what an operation
leaves alone is read off its steps.

* `Scene.Lasting`: relations of scenes that allow any change of the document;
* `CallbackTable.Counted`: a table after a closure has got or lost a listener;
* `Scene.keeps_releaseSubtree`, `Scene.keeps_saveTemplate`, `Scene.keeps_listen`: single operations;
* **`Scene.keeps_execute`**: an instruction;
* **`Scene.templates_execute`**: an instruction that does not define a template leaves the templates alone;
* **`Scene.bindings_execute`**: one that moves no ids leaves the ids alone.
-/

namespace DomHost

variable {κ α : Type}

/-- Is the property the content of a node, whose old nodes are given up when it is assigned? -/
def Property.isContent : Property → Bool
  | .innerHtml | .textContent => true
  | _ => false

/-- May the instruction bind ids or unbind them? -/
def Instruction.movesIds : Instruction → Bool
  | .createElement .. | .createText .. | .createPlaceholder _ | .loadTemplate .. | .bindElementById .. |
    .remove _ | .replaceWith .. | .freeId _ => true
  | .setProperty _ property _ => property.isContent
  | _ => false

/-- A closure has got a listener, or lost one. -/
def CallbackTable.Counted (t t' : CallbackTable α) : Prop :=
  ∃ c k, t.attach c = .ok (k, t') ∨ t.detach c = .ok (k, t')

namespace Scene

/-- A relation between scenes that allows any change of the document. -/
structure Lasting (R : Scene κ → Scene κ → Prop) : Prop extends DomHost.Lasting R where
  document : ∀ s d, R s { s with document := d }

variable {R : Scene κ → Scene κ → Prop}

/-! ## Reading, and editing the document -/

section Document

variable (hR : Lasting R)

include hR

theorem keeps_onDocument (x : DocumentM α) : Keeps R (onDocument x) := by
  intro s
  unfold Ends onDocument
  cases x s.document with
  | ok a d => exact hR.document s d
  | error e d => exact hR.document s d

theorem keeps_node (id : NodeId) : Keeps R (node id) := by
  refine Keeps.get_bind fun s => ?_
  split
  · exact .pure hR.toLasting _
  · exact .throw hR.toLasting _

theorem keeps_nodes (ids : List NodeId) : Keeps R (nodes ids) := .mapM hR.toLasting (keeps_node hR) ids

theorem keeps_newElement (tag : String) (ns : Option String) : Keeps R (newElement tag ns) := by
  unfold newElement
  cases ns with
  | some ns => exact keeps_onDocument hR _
  | none => exact .bind hR.toLasting (keeps_onDocument hR _) fun _ => keeps_onDocument hR _

theorem keeps_writeAttribute (r : NodeRef) (name value : String) (ns : Option String) :
    Keeps R (writeAttribute r name value ns) := by
  unfold writeAttribute
  cases ns with
  | some ns => exact keeps_onDocument hR _
  | none => exact keeps_onDocument hR _

/-! ## Templates -/

theorem keeps_complete (r : NodeRef) (waiting : List OpenElement) : Keeps R (complete r waiting) := by
  induction waiting generalizing r with
  | nil => exact .pure hR.toLasting _
  | cons o rest ih =>
    unfold complete
    refine .ite (.pure hR.toLasting _) ?_
    exact .bind hR.toLasting (.forM hR.toLasting (fun _ => keeps_onDocument hR _) _) fun _ => ih o.node

theorem keeps_createDescribed (d : Descriptor) : Keeps R (createDescribed d) := by
  unfold createDescribed
  cases d with
  | element tag ns attributes _ _ =>
    refine .bind hR.toLasting (keeps_newElement hR tag ns) fun r => ?_
    refine .bind hR.toLasting (.forM hR.toLasting (fun a => ?_) attributes) fun _ => .pure hR.toLasting r
    exact keeps_writeAttribute hR r a.name a.value a.ns
  | text t => exact keeps_onDocument hR _
  | dynamicText => exact keeps_onDocument hR _
  | placeholder => exact keeps_onDocument hR _

theorem keeps_assemble (total : Nat) (ds : List Descriptor) (a : Assembly) :
    Keeps R (assemble total ds a) := by
  induction ds generalizing a with
  | nil =>
    unfold assemble
    exact .ite (.pure hR.toLasting _) (.throw hR.toLasting _)
  | cons d rest ih =>
    unfold assemble
    refine .bind hR.toLasting (keeps_createDescribed hR d) fun r => ?_
    refine .ite (ih _) (.bind hR.toLasting (keeps_complete hR r _) fun w => ih _)

theorem keeps_saveTemplate (ht : ∀ s ts, R s { s with templates := ts }) (number : UInt32)
    (ds : List Descriptor) : Keeps R (saveTemplate number ds) := by
  refine Keeps.get_bind fun s => .ite (.pure hR.toLasting _) ?_
  refine .bind hR.toLasting (keeps_assemble hR ds.length ds {}) fun a => ?_
  split
  · refine .bind hR.toLasting (.modify fun s => ht s _) fun _ => ?_
    split
    · exact (keeps_onDocument hR _).discard
    · exact .pure hR.toLasting _
  · exact .throw hR.toLasting _

end Document

/-! ## Ids -/

section Bindings

variable (hR : Lasting R) (hb : ∀ s b, R s { s with bindings := b })

include hR hb

theorem keeps_tieSlots (t : Template) (root : NodeRef) (slots : List (List Nat × NodeId)) :
    Keeps R (tieSlots t root slots) := by
  induction slots with
  | nil => exact .pure hR.toLasting _
  | cons slot rest ih =>
    obtain ⟨path, id⟩ := slot
    refine Keeps.get_bind fun s => ?_
    split
    · exact .bind hR.toLasting (.modify fun s => hb s _) fun _ => ih
    · exact .throw_bind hR.toLasting _ _

theorem keeps_instantiate (number : UInt32) (ids : List NodeId) : Keeps R (instantiate number ids) := by
  refine Keeps.get_bind fun s => ?_
  split
  · exact .throw hR.toLasting _
  · rename_i t _
    refine .ite (.throw_bind hR.toLasting _ _) ?_
    refine .bind hR.toLasting (keeps_onDocument hR _) fun root => ?_
    exact .bind hR.toLasting (keeps_tieSlots hR hb t root _) fun _ => .pure hR.toLasting root

end Bindings

/-! ## Closures -/

section Callbacks

variable (hR : Lasting R)
  (hc : ∀ (s : Scene κ) t, s.callbacks.Counted t → R s { s with callbacks := t })

include hR hc

theorem keeps_listen (r : NodeRef) (name : String) (id : CallbackId) (capture : Bool) :
    Keeps R (listen r name id capture) := by
  refine Keeps.get_bind fun s => ?_
  split
  · refine .bind hR.toLasting (keeps_onDocument hR _) fun _ => .ite ?_ (.pure hR.toLasting _)
    intro s
    refine Ends.get_bind ?_
    split
    · rename_i k t hk
      exact Ends.modify (hc s t ⟨id, k, Or.inl hk⟩)
    · exact Ends.throw (hR.refl s)
  · exact .throw_bind hR.toLasting _ _

theorem keeps_unlisten (r : NodeRef) (name : String) (id : CallbackId) (capture : Bool) :
    Keeps R (unlisten r name id capture) := by
  refine .bind hR.toLasting (keeps_onDocument hR _) fun _ => .ite ?_ (.pure hR.toLasting _)
  intro s
  refine Ends.get_bind ?_
  split
  · rename_i k t hk
    exact Ends.modify (hc s t ⟨id, k, Or.inr hk⟩)
  · exact Ends.pure (hR.refl s)

/-- Closures lose listeners one by one. -/
theorem foldl_dropListener (ls : List Listener) (s : Scene κ) :
    R s { s with callbacks := ls.foldl dropListener s.callbacks } := by
  induction ls generalizing s with
  | nil => exact hR.refl s
  | cons l ls ih =>
    have hone : R s { s with callbacks := dropListener s.callbacks l } := by
      unfold dropListener
      split
      · rename_i id _
        split
        · rename_i k t hk
          exact hc s t ⟨id, k, Or.inr hk⟩
        · exact hR.refl s
      · exact hR.refl s
    exact hR.trans hone (ih { s with callbacks := dropListener s.callbacks l })

end Callbacks

/-! ## Giving up nodes -/

section Release

variable (hR : Lasting R) (hb : ∀ s b, R s { s with bindings := b })
  (hc : ∀ (s : Scene κ) t, s.callbacks.Counted t → R s { s with callbacks := t })

include hR hb hc

theorem foldl_strip (rs : List NodeRef) (s : Scene κ) : R s (rs.foldl strip s) := by
  induction rs generalizing s with
  | nil => exact hR.refl s
  | cons r rs ih =>
    have hfirst := foldl_dropListener hR hc (s.document.listeners.takeAll r).1 s
    exact hR.trans (hR.trans (hR.trans hfirst (hR.document _ _)) (hb _ _)) (ih (s.strip r))

theorem keeps_releaseSubtree (r : NodeRef) : Keeps R (releaseSubtree r) :=
  .bind hR.toLasting (.modify fun s => foldl_strip hR hb hc _ s) fun _ => (keeps_onDocument hR _).discard

theorem keeps_releaseChildren (r : NodeRef) : Keeps R (releaseChildren r) :=
  Keeps.get_bind fun _ => .forM hR.toLasting (keeps_releaseSubtree hR hb hc) _

theorem keeps_reclaim (r : NodeRef) : Keeps R (reclaim r) :=
  Keeps.get_bind fun _ => .ite (keeps_releaseSubtree hR hb hc r) (.pure hR.toLasting _)

theorem keeps_bind (id : NodeId) (r : NodeRef) : Keeps R (bind id r) := by
  refine Keeps.get_bind fun s => .bind hR.toLasting (.modify fun s => hb s _) fun _ => ?_
  cases (s.bindings.get? id).filter (· != r) with
  | none => exact .pure hR.toLasting _
  | some old => exact keeps_reclaim hR hb hc old

theorem keeps_replace (old : NodeRef) (rs : List NodeRef) : Keeps R (replace old rs) := by
  refine Keeps.get_bind fun s => .bind hR.toLasting (keeps_onDocument hR _) fun _ => ?_
  exact .ite (keeps_releaseSubtree hR hb hc old) (.pure hR.toLasting _)

end Release

/-! ## Instructions -/

section Instructions

variable (hR : Lasting R) (hc : ∀ (s : Scene κ) t, s.callbacks.Counted t → R s { s with callbacks := t })

include hR hc

theorem keeps_assign (r : NodeRef) (property : Property) (value : String)
    (hb : property.isContent = true → ∀ s b, R s { s with bindings := b }) :
    Keeps R (assign r property value) := by
  unfold assign
  cases property with
  | innerHtml =>
    refine .bind hR.toLasting (keeps_onDocument hR _) fun parsed => ?_
    exact .bind hR.toLasting (keeps_releaseChildren hR (hb rfl) hc r) fun _ => keeps_onDocument hR _
  | textContent =>
    exact .bind hR.toLasting (keeps_releaseChildren hR (hb rfl) hc r) fun _ => keeps_onDocument hR _
  | className => exact keeps_onDocument hR _
  | value => exact keeps_onDocument hR _
  | checked => exact keeps_onDocument hR _

/-- **An instruction keeps what none of its changes touches.** -/
theorem keeps_execute (i : Instruction) (hb : i.movesIds = true → ∀ s b, R s { s with bindings := b })
    (ht : ∀ number ds, i = .saveTemplate number ds → ∀ s ts, R s { s with templates := ts }) :
    Keeps R (execute i) := by
  have hL := hR.toLasting
  have hnew := fun x : DocumentM NodeRef => keeps_onDocument hR x
  have hnode := fun id => keeps_node hR id
  cases i with
  | createElement id tag ns =>
    exact .bind hL (keeps_newElement hR tag ns) (keeps_bind hR (hb rfl) hc id)
  | createText id text => exact .bind hL (hnew _) (keeps_bind hR (hb rfl) hc id)
  | createPlaceholder id => exact .bind hL (hnew _) (keeps_bind hR (hb rfl) hc id)
  | loadTemplate template id slots =>
    exact .bind hL (keeps_instantiate hR (hb rfl) template slots) (keeps_bind hR (hb rfl) hc id)
  | saveTemplate number ds => exact keeps_saveTemplate hR (ht number ds rfl) number ds
  | bindElementById id domId =>
    refine Keeps.get_bind fun s => ?_
    split
    · exact keeps_bind hR (hb rfl) hc id _
    · exact .throw hL _
  | setAttribute id name value ns =>
    exact .bind hL (hnode id) fun r => keeps_writeAttribute hR r name value ns
  | removeAttribute id name ns => exact .bind hL (hnode id) fun r => keeps_onDocument hR _
  | toggleAttribute id name force =>
    exact .bind hL (hnode id) fun r => (keeps_onDocument hR _).discard
  | setStyle id property value => exact .bind hL (hnode id) fun r => keeps_onDocument hR _
  | setProperty id property value =>
    exact .bind hL (hnode id) fun r => keeps_assign hR hc r property value hb
  | appendChildren parent children =>
    refine .bind hL (hnode parent) fun r => .bind hL (keeps_nodes hR children) fun rs => ?_
    exact .forM hL (fun _ => keeps_onDocument hR _) rs
  | insertBefore reference ids =>
    exact .bind hL (hnode reference) fun r => .bind hL (keeps_nodes hR ids) fun rs =>
      keeps_onDocument hR _
  | insertAfter reference ids =>
    exact .bind hL (hnode reference) fun r => .bind hL (keeps_nodes hR ids) fun rs =>
      keeps_onDocument hR _
  | remove id => exact .bind hL (hnode id) (keeps_releaseSubtree hR (hb rfl) hc)
  | replaceWith id ids =>
    exact .bind hL (hnode id) fun r => .bind hL (keeps_nodes hR ids) (keeps_replace hR (hb rfl) hc r)
  | freeId id =>
    refine Keeps.get_bind fun s => ?_
    split
    · exact .bind hL (.modify fun s => hb rfl s _) fun _ => keeps_reclaim hR (hb rfl) hc _
    · exact .pure hL _
  | addListener id name callback capture =>
    exact .bind hL (hnode id) fun r => keeps_listen hR hc r name callback capture
  | removeListener id name callback capture =>
    exact .bind hL (hnode id) fun r => keeps_unlisten hR hc r name callback capture

end Instructions

theorem lasting_templates : Lasting fun s t : Scene κ => t.templates = s.templates :=
  ⟨⟨fun _ => rfl, fun hst htu => htu.trans hst⟩, fun _ _ => rfl⟩

/-- **No instruction but the one that defines a template changes the templates.** -/
theorem templates_execute {i : Instruction} (hi : ∀ number ds, i ≠ .saveTemplate number ds) :
    Keeps (fun s t : Scene κ => t.templates = s.templates) (execute i) :=
  keeps_execute lasting_templates (fun _ _ _ => rfl) i (fun _ _ _ => rfl)
    fun number ds he => absurd he (hi number ds)

theorem lasting_bindings : Lasting fun s t : Scene κ => t.bindings = s.bindings :=
  ⟨⟨fun _ => rfl, fun hst htu => htu.trans hst⟩, fun _ _ => rfl⟩

/-- **An instruction that moves no ids leaves the ids alone.** -/
theorem bindings_execute {i : Instruction} (hi : i.movesIds = false) :
    Keeps (fun s t : Scene κ => t.bindings = s.bindings) (execute i) :=
  keeps_execute lasting_bindings (fun _ _ _ => rfl) i (fun ht => absurd (hi.symm.trans ht) (by decide))
    fun _ _ _ _ _ => rfl

end Scene

end DomHost
