import DomHost.Edit.Execute
import DomHost.Proofs.Follows

/-!
# The report of released closures

The ids of released closures are put down in order until they are reported. No instruction looks at
what was put down before, so it does the same whether there was a report in between or not.

* `Scene.preceded`: a scene in which other closures were released before;
* `Scene.Oblivious`: operations that do not see which;
* **`Scene.oblivious_execute`**, **`Scene.oblivious_forM`**: instructions are such.
-/

namespace DomHost

variable {κ α : Type} {before : List CallbackId}

namespace CallbackTable

/-- A table in which other closures were released before. -/
def preceded (before : List CallbackId) (t : CallbackTable α) : CallbackTable α :=
  { t with released := before ++ t.released }

theorem attach_preceded (t : CallbackTable α) (id : CallbackId) :
    (t.preceded before).attach id = (t.attach id).map fun e => (e.1, e.2.preceded before) := by
  have hlive : (t.preceded before).live? id = t.live? id := rfl
  have hpending : (t.preceded before).pending? id = t.pending? id := rfl
  unfold attach
  rw [hlive, hpending]
  split
  · split <;> rfl
  · split <;> rfl

theorem detach_preceded (t : CallbackTable α) (id : CallbackId) :
    (t.preceded before).detach id = (t.detach id).map fun e => (e.1, e.2.preceded before) := by
  have hlive : (t.preceded before).live? id = t.live? id := rfl
  unfold detach
  rw [hlive]
  split
  · rfl
  · simp only
    split
    · simp only [preceded, Except.map, List.append_assoc]
    · rfl

end CallbackTable

namespace Scene

/-- A scene in which other closures were released before. -/
def preceded (before : List CallbackId) (s : Scene κ) : Scene κ :=
  { s with callbacks := s.callbacks.preceded before }

/-- An operation that does not see which closures were released before. -/
abbrev Oblivious (before : List CallbackId) (x : SceneM κ α) : Prop :=
  Follows (fun s t => t = s.preceded before) (fun _ => False) x

namespace Oblivious

/-- A look at the scene that does not show which closures were released. -/
theorem get_bind {f : Scene κ → SceneM κ α} (hsame : ∀ s, f (s.preceded before) = f s)
    (hf : ∀ s, Oblivious before (f s)) : Oblivious before (MonadState.get >>= f) :=
  Follows.get_bind (by rintro s _ rfl; exact hsame s) hf

theorem modify {f : Scene κ → Scene κ} (hf : ∀ s, f (s.preceded before) = (f s).preceded before) :
    Oblivious before (modify f : SceneM κ PUnit) :=
  Follows.modify (by rintro s _ rfl; exact hf s)

end Oblivious

/-! ## Nodes and documents -/

theorem oblivious_onDocument (x : DocumentM α) : Oblivious before (onDocument x : SceneM κ α) := by
  rintro s _ rfl
  left
  have hdocument : (s.preceded before).document = s.document := rfl
  unfold onDocument
  rw [hdocument]
  cases x s.document with
  | ok a d => exact .ok a rfl
  | error e d => exact .error _ rfl

theorem oblivious_node (id : NodeId) : Oblivious before (node id : SceneM κ NodeRef) := by
  refine Oblivious.get_bind (fun _ => rfl) fun s => ?_
  split
  · exact .pure _
  · exact .throw _

theorem oblivious_nodes (ids : List NodeId) : Oblivious before (nodes ids : SceneM κ (List NodeRef)) :=
  .mapM oblivious_node ids

theorem oblivious_tie (id : NodeId) (r : NodeRef) : Oblivious before (tie id r : SceneM κ Unit) :=
  .modify fun _ => rfl

theorem oblivious_newElement (tag : String) (ns : Option String) :
    Oblivious before (newElement tag ns : SceneM κ NodeRef) := by
  unfold newElement
  cases ns with
  | some ns => exact oblivious_onDocument _
  | none => exact (oblivious_onDocument _).bind fun _ => oblivious_onDocument _

theorem oblivious_writeAttribute (r : NodeRef) (name value : String) (ns : Option String) :
    Oblivious before (writeAttribute r name value ns : SceneM κ Unit) := by
  cases ns with
  | some ns => exact oblivious_onDocument _
  | none => exact oblivious_onDocument _

/-! ## Templates -/

theorem oblivious_complete (r : NodeRef) (waiting : List OpenElement) :
    Oblivious before (complete r waiting : SceneM κ _) := by
  induction waiting generalizing r with
  | nil => exact .pure _
  | cons o rest ih =>
    unfold complete
    refine .ite (.pure _) ?_
    exact (Follows.forM (fun _ => oblivious_onDocument _) _).bind fun _ => ih o.node

theorem oblivious_createDescribed (d : Descriptor) :
    Oblivious before (createDescribed d : SceneM κ NodeRef) := by
  unfold createDescribed
  cases d with
  | element tag ns attributes _ _ =>
    refine (oblivious_newElement tag ns).bind fun r => ?_
    exact (Follows.forM (fun a => oblivious_writeAttribute r a.name a.value a.ns) attributes).bind
      fun _ => .pure r
  | text t => exact oblivious_onDocument _
  | dynamicText => exact oblivious_onDocument _
  | placeholder => exact oblivious_onDocument _

theorem oblivious_assemble (total : Nat) (ds : List Descriptor) (a : Assembly) :
    Oblivious before (assemble total ds a : SceneM κ Assembly) := by
  induction ds generalizing a with
  | nil => exact .ite (.pure a) (.throw _)
  | cons d rest ih =>
    refine (oblivious_createDescribed d).bind fun r => .ite (ih _) ?_
    exact (oblivious_complete r _).bind fun w => ih _

theorem oblivious_saveTemplate (number : UInt32) (descriptors : List Descriptor) :
    Oblivious before (saveTemplate number descriptors : SceneM κ Unit) := by
  refine Oblivious.get_bind (fun _ => rfl) fun s => .ite (.pure _) ?_
  refine (oblivious_assemble _ _ _).bind fun a => ?_
  split
  · refine Follows.bind (Oblivious.modify fun _ => rfl) fun _ => ?_
    split
    · exact (oblivious_onDocument _).discard
    · exact .pure _
  · exact .throw _

theorem oblivious_tieSlots (t : Template) (root : NodeRef) (slots : List (List Nat × NodeId)) :
    Oblivious before (tieSlots t root slots : SceneM κ Unit) := by
  induction slots with
  | nil => exact .pure _
  | cons slot rest ih =>
    refine Oblivious.get_bind (fun _ => rfl) fun s => ?_
    split
    · exact (oblivious_tie _ _).bind fun _ => ih
    · exact .throw_bind _ _

theorem oblivious_instantiate (number : UInt32) (ids : List NodeId) :
    Oblivious before (instantiate number ids : SceneM κ NodeRef) := by
  refine Oblivious.get_bind (fun _ => rfl) fun s => ?_
  split
  · exact .throw _
  · refine .ite (.throw_bind _ _) ?_
    exact (oblivious_onDocument _).bind fun root => (oblivious_tieSlots _ _ _).bind fun _ => .pure root

/-! ## Releasing nodes -/

theorem dropListener_preceded (t : CallbackTable κ) (l : Listener) :
    dropListener (t.preceded before) l = (dropListener t l).preceded before := by
  unfold dropListener
  split
  · rename_i id _
    rw [CallbackTable.detach_preceded]
    cases t.detach id <;> rfl
  · rfl

theorem strip_preceded (s : Scene κ) (r : NodeRef) :
    strip (s.preceded before) r = (strip s r).preceded before := by
  have hfold (taken : List Listener) : taken.foldl dropListener (s.callbacks.preceded before) =
      (taken.foldl dropListener s.callbacks).preceded before :=
    List.foldl_hom _ dropListener_preceded
  unfold strip
  simp only [preceded, hfold]

theorem oblivious_releaseSubtree (root : NodeRef) :
    Oblivious before (releaseSubtree root : SceneM κ Unit) := by
  refine (Oblivious.modify fun s => ?_).bind fun _ => (oblivious_onDocument _).discard
  exact List.foldl_hom _ strip_preceded

theorem oblivious_releaseChildren (r : NodeRef) :
    Oblivious before (releaseChildren r : SceneM κ Unit) :=
  Oblivious.get_bind (fun _ => rfl) fun _ => .forM oblivious_releaseSubtree _

theorem oblivious_reclaim (r : NodeRef) : Oblivious before (reclaim r : SceneM κ Unit) :=
  Oblivious.get_bind (fun _ => rfl) fun _ => .ite (oblivious_releaseSubtree r) (.pure _)

theorem oblivious_bind (id : NodeId) (r : NodeRef) : Oblivious before (bind id r : SceneM κ Unit) := by
  refine Oblivious.get_bind (fun _ => rfl) fun s => (oblivious_tie id r).bind fun _ => ?_
  cases (s.bindings.get? id).filter (· != r) with
  | none => exact .pure _
  | some old => exact oblivious_reclaim old

/-! ## Instructions -/

theorem oblivious_assign (r : NodeRef) (property : Property) (value : String) :
    Oblivious before (assign r property value : SceneM κ Unit) := by
  cases property with
  | innerHtml =>
    refine (oblivious_onDocument _).bind fun parsed => ?_
    exact (oblivious_releaseChildren r).bind fun _ => oblivious_onDocument _
  | textContent => exact (oblivious_releaseChildren r).bind fun _ => oblivious_onDocument _
  | className => exact oblivious_onDocument _
  | value => exact oblivious_onDocument _
  | checked => exact oblivious_onDocument _

theorem oblivious_replace (old : NodeRef) (nodes : List NodeRef) :
    Oblivious before (replace old nodes : SceneM κ Unit) :=
  Oblivious.get_bind (fun _ => rfl) fun _ =>
    (oblivious_onDocument _).bind fun _ => .ite (oblivious_releaseSubtree old) (.pure _)

theorem oblivious_attach (id : CallbackId) : Oblivious before (attach id : SceneM κ Unit) := by
  refine Follows.get_bind_of_alike ?_
  rintro s _ rfl
  have hattach : (s.preceded before).callbacks.attach id = _ := CallbackTable.attach_preceded _ id
  rw [hattach]
  cases s.callbacks.attach id with
  | ok e => exact .ok _ rfl
  | error e => exact .error _ rfl

theorem oblivious_listen (r : NodeRef) (name : String) (id : CallbackId) (capture : Bool) :
    Oblivious before (listen r name id capture : SceneM κ Unit) := by
  refine Oblivious.get_bind (fun _ => rfl) fun s => ?_
  split
  · exact (oblivious_onDocument _).bind fun _ => .ite (oblivious_attach id) (.pure _)
  · exact .throw_bind _ _

theorem oblivious_unlisten (r : NodeRef) (name : String) (id : CallbackId) (capture : Bool) :
    Oblivious before (unlisten r name id capture : SceneM κ Unit) := by
  refine (oblivious_onDocument _).bind fun _ => .ite (Follows.get_bind_of_alike ?_) (.pure _)
  rintro s _ rfl
  have hdetach : (s.preceded before).callbacks.detach id = _ := CallbackTable.detach_preceded _ id
  rw [hdetach]
  cases s.callbacks.detach id with
  | ok e => exact .ok _ rfl
  | error e => exact .ok _ rfl

/-- **An instruction does not see which closures were released before.** -/
theorem oblivious_execute (i : Instruction) : Oblivious before (execute i : SceneM κ Unit) := by
  cases i with
  | createElement id tag ns => exact (oblivious_newElement tag ns).bind fun r => oblivious_bind id r
  | createText id text => exact (oblivious_onDocument _).bind fun r => oblivious_bind id r
  | createPlaceholder id => exact (oblivious_onDocument _).bind fun r => oblivious_bind id r
  | loadTemplate template id slots =>
    exact (oblivious_instantiate template slots).bind fun r => oblivious_bind id r
  | saveTemplate template nodes => exact oblivious_saveTemplate template nodes
  | bindElementById id domId =>
    refine Oblivious.get_bind (fun _ => rfl) fun s => ?_
    split
    · exact oblivious_bind id _
    · exact .throw _
  | setAttribute id name value ns =>
    exact (oblivious_node id).bind fun r => oblivious_writeAttribute r name value ns
  | removeAttribute id name ns => exact (oblivious_node id).bind fun r => oblivious_onDocument _
  | toggleAttribute id name force =>
    exact (oblivious_node id).bind fun r => (oblivious_onDocument _).discard
  | setStyle id property value => exact (oblivious_node id).bind fun r => oblivious_onDocument _
  | setProperty id property value =>
    exact (oblivious_node id).bind fun r => oblivious_assign r property value
  | appendChildren parent children =>
    refine (oblivious_node parent).bind fun r => (oblivious_nodes children).bind fun rs => ?_
    exact .forM (fun _ => oblivious_onDocument _) rs
  | insertBefore reference ids =>
    exact (oblivious_node reference).bind fun r => (oblivious_nodes ids).bind fun rs =>
      oblivious_onDocument _
  | insertAfter reference ids =>
    exact (oblivious_node reference).bind fun r => (oblivious_nodes ids).bind fun rs =>
      oblivious_onDocument _
  | remove id => exact (oblivious_node id).bind fun r => oblivious_releaseSubtree r
  | replaceWith id ids =>
    exact (oblivious_node id).bind fun r => (oblivious_nodes ids).bind fun rs => oblivious_replace r rs
  | freeId id =>
    refine Oblivious.get_bind (fun _ => rfl) fun s => ?_
    split
    · exact Follows.bind (Oblivious.modify fun _ => rfl) fun _ => oblivious_reclaim _
    · exact .pure _
  | addListener id name callback capture =>
    exact (oblivious_node id).bind fun r => oblivious_listen r name callback capture
  | removeListener id name callback capture =>
    exact (oblivious_node id).bind fun r => oblivious_unlisten r name callback capture

/-- **Nor do any number of them.** -/
theorem oblivious_forM (before : List CallbackId) (is : List Instruction) :
    Oblivious before (is.forM execute : SceneM κ PUnit) :=
  .forM oblivious_execute is

end Scene

end DomHost
