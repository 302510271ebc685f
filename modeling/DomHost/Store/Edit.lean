import DomHost.Store.Basic

/-!
# Structural edits

Every edit moves whole trees of the forest. An insertion is checked before anything moves; an edit
that moves several nodes may stop at the first that is refused, and keeps what it has moved by then.

* `Store.insertBefore`, `appendChild`, `removeChild`, `detach`: one node;
* `Store.insertAfter`, `insertAllBefore`, `replaceWith`, `clearChildren`: several nodes;
* `Store.cloneSubtree`, `Store.freeSubtree`: copies and removal;
* `Store.cloneByWalk`: a copy that is made without recursion.
-/

namespace DomHost.Store

/-! ## Moving trees -/

/-- Makes a tree a detached one; a node without parent stays as it is. -/
def takeOut (s : Store) (r : NodeRef) : Store :=
  match s.parent? r, s.tree? r with
  | some _, some (n, c) => { s with forest := .node n c (s.forest.prune (is r)) }
  | _, _ => s

/-- Moves a tree under a parent, in front of one of its children or behind all of them. -/
def place (s : Store) (parent child : NodeRef) (before : Option NodeRef) : Store :=
  match s.tree? child with
  | some tree =>
    { s with
      forest := (s.forest.prune (is child)).editChildren (is parent)
        (·.adopt (fun n => before == some n.ref) tree) }
  | none => s

/-- Makes every child of a node a detached tree. -/
def scatter (s : Store) (r : NodeRef) : Store :=
  match s.tree? r with
  | some (_, c) => { s with forest := c ++ s.forest.editChildren (is r) fun _ => .nil }
  | none => s

/-! ## One node -/

/-- The rules for putting a node under a parent. -/
def checkInsertion (parent child : NodeRef) : StoreM Unit := do
  let above ← require parent
  let below ← require child
  unless above.isContainer do throw (.hierarchyRequest .parentIsLeaf)
  if below.isDocument then throw (.hierarchyRequest .documentInserted)
  if (← get).isInclusiveAncestor child parent then throw (.hierarchyRequest .cycle)
  if above.isDocument && below.isText then throw (.hierarchyRequest .textUnderDocument)

/-- Unlinks a node from its parent. -/
def detach (r : NodeRef) : StoreM Unit := do
  discard (require r)
  modify (·.takeOut r)

/-- Puts a node in front of a child of the parent; without a reference it becomes the last child. -/
def insertBefore (parent child : NodeRef) (reference : Option NodeRef) : StoreM Unit := do
  checkInsertion parent child
  match reference.bind (·.toOption) with
  | none => modify (·.place parent child none)
  | some before =>
    discard (require before)
    unless (← get).parent? before == some parent do throw (.notAChild parent before)
    modify fun s =>
      s.place parent child (if before = child then s.nextSibling? child else some before)

/-- Makes a node the last child of the parent. -/
def appendChild (parent child : NodeRef) : StoreM Unit := insertBefore parent child none

/-- Unlinks a node from the parent it is expected to have. -/
def removeChild (parent child : NodeRef) : StoreM Unit := do
  discard (require child)
  unless ((← get).parent? child).getD .nowhere == parent do throw (.notAChild parent child)
  modify (·.takeOut child)

/-! ## Several nodes -/

/-- Inserts nodes in order in front of the first candidate that is not itself one of them. -/
def insertAt (parent : NodeRef) (nodes candidates : List NodeRef) : StoreM Unit :=
  let anchor := candidates.find? (!nodes.contains ·)
  nodes.forM (insertBefore parent · anchor)

/-- Inserts nodes in order behind a node; nothing happens when it is detached. -/
def insertAfter (reference : NodeRef) (nodes : List NodeRef) : StoreM Unit := do
  match (← get).parent? reference with
  | none => discard (require reference)
  | some parent => insertAt parent nodes ((← get).following reference)

/-- Inserts nodes in order in front of a node; nothing happens when it is detached. -/
def insertAllBefore (reference : NodeRef) (nodes : List NodeRef) : StoreM Unit := do
  match (← get).parent? reference with
  | none => discard (require reference)
  | some parent => insertAt parent nodes (reference :: (← get).following reference)

/-- Puts nodes in the place of a node; nothing happens when it is detached. All nodes are checked
before the first one moves. -/
def replaceWith (old : NodeRef) (nodes : List NodeRef) : StoreM Unit := do
  match (← get).parent? old with
  | none => discard (require old)
  | some parent =>
    nodes.forM (checkInsertion parent)
    let candidates := (← get).following old
    unless nodes.contains old do detach old
    insertAt parent nodes candidates

/-- Detaches every child of a node. -/
def clearChildren (r : NodeRef) : StoreM Unit := modify (·.scatter r)

/-! ## Copies and removal -/

/-- A node with the same data in a cell of its own. -/
def renew (n : Node) (cells : Cells) : Node × Cells :=
  let (r, cells) := cells.draw
  ({ n with ref := r }, cells)

/-- A detached copy of a tree, in cells drawn in pre-order. -/
def copy (s : Store) (n : Node) (c : Forest Node) : NodeRef × Store :=
  let (n, cells) := renew n s.cells
  let (c, cells) := c.rename renew cells
  (n.ref, ⟨cells, .node n c s.forest⟩)

/-- Copies a node with all below it; the copy is detached. -/
def cloneSubtree (r : NodeRef) : StoreM NodeRef := do
  match (← get).tree? r with
  | none => throw (.notFound r)
  | some (n, c) =>
    if n.data.isDocument then throw (.hierarchyRequest .documentCloned)
    modifyGet (·.copy n c)

/-- Copies one node of the tree of `root`, and puts the copy last under that of the parent. -/
def copyNode (root : NodeRef) (copies : List (NodeRef × NodeRef)) (source : NodeRef) :
    StoreM (List (NodeRef × NodeRef)) := do
  let data ← require source
  let parent := (← get).parent? source
  let copy ← modifyGet (·.create data)
  if source ≠ root then
    match parent.bind (List.lookup · copies) with
    | some above => modify (·.place above copy none)
    | none => pure ()
  pure ((source, copy) :: copies)

/-- The same copy made node by node, along a walk through the tree and with a table of the copies made so far. -/
def cloneByWalk (r : NodeRef) : StoreM NodeRef := do
  if (← require r).isDocument then throw (.hierarchyRequest .documentCloned)
  let copies ← ((← get).descendants r).foldlM (copyNode r) []
  match List.lookup r copies with
  | some copy => pure copy
  | none => throw (.notFound r)

/-- Frees a node with all below it, and lists what was freed in pre-order. -/
def freeSubtree (r : NodeRef) : StoreM (List NodeRef) := do
  if (← require r).isDocument then throw (.hierarchyRequest .documentFreed)
  modifyGet fun s =>
    let freed := s.descendants r
    (freed, ⟨freed.foldl Cells.release s.cells, s.forest.prune (is r)⟩)

end DomHost.Store
