import DomHost.DomError

/-!
# Cells with links

The nodes of a tree lie in numbered cells, live or free, and are tied to each other by links: a node knows its
parent, its first and last child, and the sibling on either side of it. A link is a reference like any other, and a
free cell keeps its generation, so that a reference to a node that is gone leads nowhere.

* `LinkedNode`, `Slot`, `Arena`: a node with its links, a cell, all of them;
* `Arena.get?`, `Arena.update`: the node of a reference;
* `Arena.push`: a new node in a free cell or behind the last one;
* `Arena.children`, `Arena.ancestors`, `Arena.descendants`: what is reached along the links.
-/

namespace DomHost

/-- What a node is, and the links to its neighbours. -/
structure LinkedNode where
  data : NodeData
  parent : NodeRef := .nowhere
  firstChild : NodeRef := .nowhere
  lastChild : NodeRef := .nowhere
  previousSibling : NodeRef := .nowhere
  nextSibling : NodeRef := .nowhere
deriving DecidableEq

/-- A cell in its current generation; a free one holds no node. -/
structure Slot where
  generation : UInt32
  node : Option LinkedNode
deriving DecidableEq

/-- Cells, and which of them are free, the one freed last first. -/
structure Arena where
  slots : Array Slot
  free : List Nat
deriving DecidableEq

/-- An operation on an arena that may fail; what it did before failing stays done. -/
abbrev ArenaM := EStateM DomError Arena

namespace Arena

/-- The arena that holds only the document node. -/
def new : Arena := ⟨#[⟨0, some { data := .document }⟩], []⟩

/-- The number of cells, in use or free. -/
def capacity (a : Arena) : Nat := a.slots.size

/-- The number of live nodes. -/
def len (a : Arena) : Nat := a.slots.size - a.free.length

/-! ## Nodes -/

/-- A live node. -/
def get? (a : Arena) : NodeRef → Option LinkedNode
  | .nowhere => none
  | .cell i g =>
    match a.slots[i]? with
    | some slot => if slot.generation = g then slot.node else none
    | none => none

/-- Changes a node, if it is live. -/
def update (a : Arena) (r : NodeRef) (f : LinkedNode → LinkedNode) : Arena :=
  match r with
  | .nowhere => a
  | .cell i g =>
    { a with
      slots := a.slots.modify i fun slot =>
        if slot.generation = g then { slot with node := slot.node.map f } else slot }

/-- Puts a node into the cell freed last, or into a new one. -/
def push (a : Arena) (n : LinkedNode) : NodeRef × Arena :=
  match a.free with
  | i :: rest =>
    (.cell i (a.slots.getD i ⟨0, none⟩).generation,
      ⟨a.slots.modify i ({ · with node := some n }), rest⟩)
  | [] => (.cell a.slots.size 0, { a with slots := a.slots.push ⟨0, some n⟩ })

/-- Empties a cell and begins its next generation. -/
def release (a : Arena) : NodeRef → Arena
  | .nowhere => a
  | .cell i _ => ⟨a.slots.modify i fun slot => ⟨slot.generation + 1, none⟩, i :: a.free⟩

/-- Fails unless the node is live, and gives it. -/
def require (r : NodeRef) : ArenaM LinkedNode := do
  match (← get).get? r with
  | some n => pure n
  | none => throw (.notFound r)

/-! ## Links -/

/-- The parent of a node, unless it is detached or not live. -/
def parent? (a : Arena) (r : NodeRef) : Option NodeRef := (a.get? r).bind (·.parent.toOption)

/-- The first child of a node. -/
def firstChild? (a : Arena) (r : NodeRef) : Option NodeRef := (a.get? r).bind (·.firstChild.toOption)

/-- The last child of a node. -/
def lastChild? (a : Arena) (r : NodeRef) : Option NodeRef := (a.get? r).bind (·.lastChild.toOption)

/-- The sibling right in front of a node. -/
def previousSibling? (a : Arena) (r : NodeRef) : Option NodeRef := (a.get? r).bind (·.previousSibling.toOption)

/-- The sibling right behind a node. -/
def nextSibling? (a : Arena) (r : NodeRef) : Option NodeRef := (a.get? r).bind (·.nextSibling.toOption)

/-- The nodes that a link leads to from a first one on, so many at most. No link of an arena leads through more
nodes than there are cells. -/
def follow (next : NodeRef → Option NodeRef) : (rounds : Nat) → Option NodeRef → List NodeRef
  | 0, _ => []
  | _ + 1, none => []
  | rounds + 1, some r => r :: follow next rounds (next r)

/-- The children of a node, in order; none when it is not live. -/
def children (a : Arena) (r : NodeRef) : List NodeRef := follow a.nextSibling? a.capacity (a.firstChild? r)

/-- The way from a node up to the top of its tree, the node included; nothing when it is not live. -/
def ancestors (a : Arena) (r : NodeRef) : List NodeRef :=
  follow a.parent? a.capacity ((a.get? r).map fun _ => r)

/-- Is the first node the second or above it? -/
def isInclusiveAncestor (a : Arena) (above r : NodeRef) : Bool := (a.ancestors r).contains above

/-- The climb from a node, so many rounds at most: to the next sibling of the node or of the nearest one above it
that has one. It leads nowhere when it comes to `root` or to a top. -/
def climb (a : Arena) (root : NodeRef) : (rounds : Nat) → NodeRef → Option NodeRef
  | 0, _ => none
  | rounds + 1, cursor =>
    if cursor = root then none
    else
      match a.get? cursor with
      | none => none
      | some n =>
        match n.nextSibling.toOption with
        | some next => some next
        | none =>
          match n.parent.toOption with
          | some parent => a.climb root rounds parent
          | none => none

/-- The nodes of the tree of `root` that are passed from a given one on, so many at most: from a node to its first
child, and where the climb leads if it has none. -/
def walk (a : Arena) (root : NodeRef) : (rounds : Nat) → Option NodeRef → List NodeRef
  | 0, _ => []
  | _ + 1, none => []
  | rounds + 1, some current =>
    match a.get? current with
    | none => []
    | some n =>
      match n.firstChild.toOption with
      | some child => current :: a.walk root rounds (some child)
      | none => current :: a.walk root rounds (a.climb root a.capacity current)

/-- A node and all below it, in pre-order; nothing when it is not live. -/
def descendants (a : Arena) (r : NodeRef) : List NodeRef :=
  a.walk r a.capacity ((a.get? r).map fun _ => r)

/-- The first node from a given one on, along the siblings, that is not among some nodes. -/
def firstOutside (a : Arena) (nodes : List NodeRef) : (rounds : Nat) → Option NodeRef → Option NodeRef
  | 0, _ => none
  | _ + 1, none => none
  | rounds + 1, some r => if nodes.contains r then a.firstOutside nodes rounds (a.nextSibling? r) else some r

end Arena

end DomHost
