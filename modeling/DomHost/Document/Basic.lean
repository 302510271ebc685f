import DomHost.Listener
import DomHost.Store.Content

/-!
# Documents

A document is a node store with the listeners on its nodes and references to its `html`, `head` and
`body` elements, which are looked up when the document is made and may go stale later.

* `Document.new`, `Document.empty`, `Document.finalize`: making a document;
* `Document.elementById?`: the connected element with an `id`;
* `Document.replaceChildren`, `Document.freeSubtree`: edits of the tree;
* `Document.addListener`, `removeListener`, `takeListeners`: the listeners on live nodes.
-/

namespace DomHost

/-- A node store with its listeners. -/
structure Document where
  store : Store
  listeners : Registry := {}
  html : NodeRef := .nowhere
  head : NodeRef := .nowhere
  body : NodeRef := .nowhere
deriving DecidableEq

/-- An operation on a document that may fail; what it did before failing stays done. -/
abbrev DocumentM := EStateM DomError Document

namespace Document

/-- An operation on the store, as one on the document. -/
def onStore {α : Type} (x : StoreM α) : DocumentM α := fun d =>
  match x d.store with
  | .ok a s => .ok a { d with store := s }
  | .error e s => .error e { d with store := s }

instance : MonadLift StoreM DocumentM := ⟨onStore⟩

/-- A document with the elements `html`, `head` and `body`. -/
def new : Document :=
  let element (i : Nat) (tag : String) : Node := ⟨.cell i 0, .element (Store.htmlElement tag)⟩
  { store := ⟨⟨#[0, 0, 0, 0], []⟩,
      .node ⟨.root, .document⟩
        (.node (element 1 "html")
          (.node (element 2 "head") .nil (.node (element 3 "body") .nil .nil)) .nil) .nil⟩
    html := .cell 1 0, head := .cell 2 0, body := .cell 3 0 }

/-- A document without elements. -/
def empty : Document := { store := .new }

/-- The first child of a node that is an HTML element with a tag. -/
def childWithTag? (d : Document) (parent : NodeRef) (tag : String) : Option NodeRef :=
  (d.store.children parent).find? fun r =>
    (d.store.element? r).any fun e => e.ns.isNone && e.localName == tag

/-- Looks up the references to `html`, `head` and `body`. Without an `html` element the last two stay
as they are. -/
def finalize (d : Document) : Document :=
  match d.childWithTag? .root "html" with
  | none => { d with html := .nowhere }
  | some html =>
    { d with
      html
      head := (d.childWithTag? html "head").getD .nowhere
      body := (d.childWithTag? html "body").getD .nowhere }

/-- The first connected element with a given `id`, which is not empty. -/
def elementById? (d : Document) (id : String) : Option NodeRef :=
  if id.isEmpty then none
  else
    match d.store.tree? .root with
    | none => none
    | some (_, c) =>
      (c.toList.find? fun n => n.data.element?.any fun e => e.attr? "id" == some id).map (·.ref)

/-! ## Edits -/

/-- Puts nodes in the place of all children of a node. The children are detached first. -/
def replaceChildren (r : NodeRef) (children : List NodeRef) : DocumentM Unit := do
  unless (← Store.require r).isContainer do throw (.hierarchyRequest .nodeIsLeaf)
  Store.clearChildren r
  children.forM fun child => Store.appendChild r child

/-- Frees a node with all below it and drops the listeners that are still on them; tells how many
nodes were freed. -/
def freeSubtree (r : NodeRef) : DocumentM Nat := do
  let freed ← Store.freeSubtree r
  modify fun d => { d with listeners := freed.foldl (fun g n => (g.takeAll n).2) d.listeners }
  pure freed.length

/-! ## Listeners -/

/-- Adds a listener to a live node; tells whether there was none like it. -/
def addListener (r : NodeRef) (l : Listener) : DocumentM Bool := do
  discard (Store.require r)
  modifyGet fun d =>
    let (added, g) := d.listeners.add r l
    (added, { d with listeners := g })

/-- Removes a listener from a live node; tells whether there was one. -/
def removeListener (r : NodeRef) (type : String) (handler : HandlerId) (capture : Bool) :
    DocumentM Bool := do
  discard (Store.require r)
  modifyGet fun d =>
    let (removed, g) := d.listeners.remove r type handler capture
    (removed, { d with listeners := g })

/-- Removes all listeners of a node, and lists them by type. -/
def takeListeners (r : NodeRef) : DocumentM (List Listener) :=
  modifyGet fun d =>
    let (taken, g) := d.listeners.takeAll r
    (taken, { d with listeners := g })

end Document

end DomHost
