import DomHost.Arena.Basic
import DomHost.Store.Create

/-!
# Edits of links

Every edit patches the links of the nodes around the one that it moves. A node between two siblings ties them to
each other when it leaves and to itself when it comes; at either end of a row of children the parent takes the
place of the sibling that is missing. An insertion is checked before a link changes; an edit that moves several
nodes may stop at the first that is refused, and keeps what it has moved by then.

* `Arena.unlink`, `Arena.link`: the links around a node that leaves its place and that takes one;
* `Arena.insertBefore`, `appendChild`, `removeChild`, `detach`: one node;
* `Arena.insertAfter`, `insertAllBefore`, `replaceWith`, `clearChildren`: several nodes;
* `Arena.cloneSubtree`, `Arena.freeSubtree`: copies and removal;
* `Arena.createElement`, `createText`, `insertNode`, `setTextContent`: new nodes.
-/

namespace DomHost.Arena

/-! ## Links around a node -/

/-- Lets a node come behind a sibling, or first under the parent when there is none. -/
def leadTo (a : Arena) (parent previous r : NodeRef) : Arena :=
  if previous.isValid then a.update previous ({ · with nextSibling := r })
  else a.update parent ({ · with firstChild := r })

/-- Lets a node come in front of a sibling, or last under the parent when there is none. -/
def leadBackTo (a : Arena) (parent next r : NodeRef) : Arena :=
  if next.isValid then a.update next ({ · with previousSibling := r })
  else a.update parent ({ · with lastChild := r })

/-- Ties the neighbours of a node to each other, and leaves it without parent and siblings. -/
def unlink (a : Arena) (r parent previous next : NodeRef) : Arena :=
  let a := a.leadTo parent previous next
  let a := a.leadBackTo parent next previous
  a.update r ({ · with parent := .nowhere, previousSibling := .nowhere, nextSibling := .nowhere })

/-- Ties a detached node into the children of a parent, in front of one of them or behind all. -/
def link (a : Arena) (parent child before : NodeRef) : Arena :=
  let anchor := if before.isValid then before else parent
  let previous :=
    match a.get? anchor with
    | some n => if before.isValid then n.previousSibling else n.lastChild
    | none => .nowhere
  let a := a.update child ({ · with parent, previousSibling := previous, nextSibling := before })
  let a := a.leadTo parent previous child
  a.leadBackTo parent before child

/-! ## One node -/

/-- The rules for putting a node under a parent. -/
def checkInsertion (parent child : NodeRef) : ArenaM Unit := do
  let above ← require parent
  let below ← require child
  unless above.data.isContainer do throw (.hierarchyRequest .parentIsLeaf)
  if below.data.isDocument then throw (.hierarchyRequest .documentInserted)
  if (← get).isInclusiveAncestor child parent then throw (.hierarchyRequest .cycle)
  if above.data.isDocument && below.data.isText then throw (.hierarchyRequest .textUnderDocument)

/-- Unlinks a node from its parent; nothing happens when it is detached. -/
def detach (r : NodeRef) : ArenaM Unit := do
  let n ← require r
  if n.parent.isValid then modify (·.unlink r n.parent n.previousSibling n.nextSibling)

/-- Puts a node in front of a child of the parent; without a reference it becomes the last child. In front of
itself it goes in front of the sibling behind it. -/
def insertBefore (parent child : NodeRef) (reference : Option NodeRef) : ArenaM Unit := do
  checkInsertion parent child
  match reference.bind (·.toOption) with
  | none =>
    detach child
    modify (·.link parent child .nowhere)
  | some before =>
    unless (← require before).parent = parent do throw (.notAChild parent before)
    let next := (← require child).nextSibling
    detach child
    modify (·.link parent child (if before = child then next else before))

/-- Makes a node the last child of the parent. -/
def appendChild (parent child : NodeRef) : ArenaM Unit := insertBefore parent child none

/-- Unlinks a node from the parent it is expected to have. -/
def removeChild (parent child : NodeRef) : ArenaM Unit := do
  unless (← require child).parent = parent do throw (.notAChild parent child)
  detach child

/-! ## Several nodes -/

/-- Inserts nodes in order in front of the first of a row of siblings that is not itself one of them. -/
def insertAt (parent : NodeRef) (nodes : List NodeRef) (anchor : Option NodeRef) : ArenaM Unit :=
  nodes.forM (insertBefore parent · anchor)

/-- Inserts nodes in order behind a node; nothing happens when it is detached. -/
def insertAfter (reference : NodeRef) (nodes : List NodeRef) : ArenaM Unit := do
  match (← get).parent? reference with
  | none => discard (require reference)
  | some parent =>
    let a ← get
    insertAt parent nodes (a.firstOutside nodes a.capacity (a.nextSibling? reference))

/-- Inserts nodes in order in front of a node; nothing happens when it is detached. -/
def insertAllBefore (reference : NodeRef) (nodes : List NodeRef) : ArenaM Unit := do
  match (← get).parent? reference with
  | none => discard (require reference)
  | some parent =>
    let a ← get
    insertAt parent nodes (a.firstOutside nodes a.capacity (some reference))

/-- Puts nodes in the place of a node; nothing happens when it is detached. All nodes are checked before the first
one moves. -/
def replaceWith (old : NodeRef) (nodes : List NodeRef) : ArenaM Unit := do
  match (← get).parent? old with
  | none => discard (require old)
  | some parent =>
    nodes.forM (checkInsertion parent)
    let a ← get
    let anchor := a.firstOutside nodes a.capacity (a.nextSibling? old)
    unless nodes.contains old do detach old
    insertAt parent nodes anchor

/-- Detaches the first child of a node until there is none, so many times at most. -/
def clearFrom (r : NodeRef) : (rounds : Nat) → ArenaM Unit
  | 0 => pure ()
  | rounds + 1 => do
    match (← get).firstChild? r with
    | none => pure ()
    | some child =>
      detach child
      clearFrom r rounds

/-- Detaches every child of a node. -/
def clearChildren (r : NodeRef) : ArenaM Unit := do clearFrom r (← get).capacity

/-! ## New nodes -/

/-- Adds a detached node, whatever links it comes with. -/
def insertNode (n : LinkedNode) : ArenaM NodeRef := modifyGet (·.push { data := n.data })

/-- Creates an HTML element. -/
def createElement (tag : String) : ArenaM NodeRef :=
  modifyGet (·.push { data := .element (Store.htmlElement tag) })

/-- Creates an element in a namespace. -/
def createElementNs (ns : Option String) (name : String) : ArenaM NodeRef := do
  let name ← liftResult (QualifiedName.extract ns name)
  modifyGet (·.push { data := .element (Store.namedElement name) })

/-- Creates a text. -/
def createText (text : String) : ArenaM NodeRef := modifyGet (·.push { data := .text text })

/-- Creates a comment. -/
def createComment (text : String) : ArenaM NodeRef := modifyGet (·.push { data := .comment text })

/-- Replaces the text of a text or comment, and the children of an element by a single text, or by none when it is
empty. The document keeps its children. -/
def setTextContent (r : NodeRef) (text : String) : ArenaM Unit := do
  match (← require r).data with
  | .text _ => modify (·.update r ({ · with data := .text text }))
  | .comment _ => modify (·.update r ({ · with data := .comment text }))
  | .document => pure ()
  | .element _ =>
    clearChildren r
    unless text.isEmpty do
      let child ← createText text
      modify (·.link r child .nowhere)

/-! ## Copies and removal -/

/-- Copies one node of the tree of `root`, and ties the copy in behind the other children of the copy of the
parent. -/
def copyNode (root : NodeRef) (copies : List (NodeRef × NodeRef)) (source : NodeRef) :
    ArenaM (List (NodeRef × NodeRef)) := do
  let n ← require source
  let copy ← insertNode n
  if source ≠ root then
    match copies.lookup n.parent with
    | some above => modify (·.link above copy .nowhere)
    | none => pure ()
  pure ((source, copy) :: copies)

/-- Copies a node with all below it; the copy is detached. -/
def cloneSubtree (r : NodeRef) : ArenaM NodeRef := do
  if (← require r).data.isDocument then throw (.hierarchyRequest .documentCloned)
  let copies ← ((← get).descendants r).foldlM (copyNode r) []
  match copies.lookup r with
  | some copy => pure copy
  | none => throw (.notFound r)

/-- Frees a node with all below it, and lists what was freed in pre-order. -/
def freeSubtree (r : NodeRef) : ArenaM (List NodeRef) := do
  if (← require r).data.isDocument then throw (.hierarchyRequest .documentFreed)
  detach r
  modifyGet fun a =>
    let freed := a.descendants r
    (freed, freed.foldl release a)

end DomHost.Arena
