import DomHost.Document.Form
import DomHost.Edit.Assemble
import DomHost.Event.Handler
import DomHost.Markup.Import

/-!
# Carrying out instructions

Instructions are carried out in order. The first fault ends the run, and what was done before it stays
done. Nodes that the compute module can no longer reach are freed: what it removes or replaces, old
children behind assigned content, and detached trees whose last id is gone.

* `Scene.releaseSubtree`: freeing a tree with its ids and listeners;
* `Scene.bind`, `Scene.reclaim`: giving up what an id was bound to;
* `Scene.execute`: one instruction;
* `Scene.run`: a stream of instructions.
-/

namespace DomHost.Scene

variable {κ : Type}

/-! ## Releasing nodes -/

/-- The closure behind a listener has a listener fewer. A closure that is gone is passed over. -/
def dropListener (callbacks : CallbackTable κ) (l : Listener) : CallbackTable κ :=
  match Handler.ofId l.handler with
  | .callback id =>
    match callbacks.detach id with
    | .ok (_, callbacks) => callbacks
    | .error _ => callbacks
  | .delegate => callbacks

/-- Takes the id and the listeners off a node. -/
def strip (s : Scene κ) (r : NodeRef) : Scene κ :=
  let (taken, listeners) := s.document.listeners.takeAll r
  { s with
    document := { s.document with listeners }
    bindings := match s.bindings.idOf? r with
      | some id => s.bindings.release id
      | none => s.bindings
    callbacks := taken.foldl dropListener s.callbacks }

/-- Frees a tree, after the ids and listeners of its nodes. -/
def releaseSubtree (root : NodeRef) : SceneM κ Unit := do
  modify fun s => (s.store.descendants root).foldl strip s
  discard (Document.freeSubtree root)

/-- Frees the children of a node. -/
def releaseChildren (r : NodeRef) : SceneM κ Unit := do
  ((← get).store.children r).forM releaseSubtree

/-- Is the node the top of a detached tree without any id in it? -/
def isOrphan (s : Scene κ) (r : NodeRef) : Bool :=
  r != .root && (s.store.get? r).isSome && (s.store.parent? r).isNone &&
    (s.store.descendants r).all fun n => (s.bindings.idOf? n).isNone

/-- Frees a tree that nothing reaches any more. -/
def reclaim (r : NodeRef) : SceneM κ Unit := do
  if (← get).isOrphan r then releaseSubtree r

/-- Ties an id to a node, and gives up the node it was tied to before. -/
def bind (id : NodeId) (r : NodeRef) : SceneM κ Unit := do
  let previous := ((← get).bindings.get? id).filter (· != r)
  tie id r
  previous.forM reclaim

/-! ## Instructions -/

/-- Assigns a property. Content that gives way is freed. -/
def assign (r : NodeRef) (property : Property) (value : String) : SceneM κ Unit := do
  match property with
  | .innerHtml =>
    let parsed ← (Document.addFragment r value : DocumentM (List NodeRef))
    releaseChildren r
    Document.replaceChildren r parsed
  | .textContent =>
    releaseChildren r
    Document.setProperty r property value
  | _ => Document.setProperty r property value

/-- Puts nodes in the place of a node, and frees it unless it is one of them. A detached node has no
place and stays. -/
def replace (old : NodeRef) (nodes : List NodeRef) : SceneM κ Unit := do
  let attached := ((← get).store.parent? old).isSome
  Store.replaceWith old nodes
  if attached && !nodes.contains old then releaseSubtree old

/-- Counts a listener more of a closure, or keeps the fault. -/
def attach (id : CallbackId) : SceneM κ Unit := do
  match (← get).callbacks.attach id with
  | .ok (_, callbacks) => modify fun s => { s with callbacks }
  | .error e => throw (.callback e)

/-- Adds a listener that calls a closure. -/
def listen (r : NodeRef) (name : String) (id : CallbackId) (capture : Bool) : SceneM κ Unit := do
  match (← get).callbacks.checkAttachable id with
  | .ok _ => pure ()
  | .error e => throw (.callback e)
  let added ← (Document.addListener r ⟨name, id.handler, { capture }⟩ : DocumentM Bool)
  if added then attach id

/-- Removes a listener that calls a closure. -/
def unlisten (r : NodeRef) (name : String) (id : CallbackId) (capture : Bool) : SceneM κ Unit := do
  let removed ← (Document.removeListener r name id.handler capture : DocumentM Bool)
  if removed then
    match (← get).callbacks.detach id with
    | .ok (_, callbacks) => modify fun s => { s with callbacks }
    | .error _ => pure ()

/-- Carries out an instruction. -/
def execute : Instruction → SceneM κ Unit
  | .createElement id tag ns => do bind id (← newElement tag ns)
  | .createText id text => do bind id (← (Store.createText text : DocumentM NodeRef))
  | .createPlaceholder id => do bind id (← (Store.createComment placeholderText : DocumentM NodeRef))
  | .loadTemplate template id slots => do bind id (← instantiate template slots)
  | .saveTemplate template nodes => saveTemplate template nodes
  | .bindElementById id domId => do
    match (← get).document.elementById? domId with
    | some r => bind id r
    | none => throw (.document (.idNotFound domId))
  | .setAttribute id name value ns => do writeAttribute (← node id) name value ns
  | .removeAttribute id name ns => do
    let r ← node id
    Store.removeAttribute r ns name
  | .toggleAttribute id name force => do
    let r ← node id
    discard (Store.toggleAttribute r name force : DocumentM Bool)
  | .setStyle id property value => do
    let r ← node id
    Store.setStyle r property value
  | .setProperty id property value => do assign (← node id) property value
  | .appendChildren parent children => do
    let r ← node parent
    (← nodes children).forM fun c => Store.appendChild r c
  | .insertBefore reference ids => do
    let r ← node reference
    let rs ← nodes ids
    Store.insertAllBefore r rs
  | .insertAfter reference ids => do
    let r ← node reference
    let rs ← nodes ids
    Store.insertAfter r rs
  | .remove id => do releaseSubtree (← node id)
  | .replaceWith id ids => do
    let r ← node id
    replace r (← nodes ids)
  | .freeId id => do
    match (← get).bindings.get? id with
    | some r =>
      modify fun s => { s with bindings := s.bindings.release id }
      reclaim r
    | none => pure ()
  | .addListener id name callback capture => do listen (← node id) name callback capture
  | .removeListener id name callback capture => do unlisten (← node id) name callback capture

/-- Carries out what a cursor reads, so many items at most, and tells how many instructions that were. -/
def runFrom (c : Cursor) : (rounds : Nat) → (applied : Nat) → SceneM κ Nat
  | 0, applied => pure applied
  | rounds + 1, applied =>
    match c.next? with
    | none => pure applied
    | some (.error e, _) => throw (.protocol e)
    | some (.ok i, c) => do
      execute i
      runFrom c rounds (applied + 1)

/-- Carries out a stream of instructions, and tells how many there were. An instruction takes a byte at least. -/
def run (c : Cursor) : SceneM κ Nat := runFrom c (c.stop - c.pos) 0

end DomHost.Scene
