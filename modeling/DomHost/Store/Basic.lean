import DomHost.DomError
import DomHost.Forest

/-!
# The node store

A store holds every live node, attached or not, as a forest: the tree of the document and the trees
that are detached from it. In a forest the links between nodes agree by construction; `Arena` keeps the
same nodes in cells that are tied by links, and these depict the forest after any calls. The cells that
give nodes their references are counted beside the forest; a freed cell is used again, last freed first,
one generation later.

* `Cells.draw`, `Cells.release`: handing out and taking back a cell;
* `Store.create`: a new detached node;
* `Store.get?`, `children`, `parent?`, `descendants`, `ancestors`: reading the tree.
-/

namespace DomHost

/-- The cells of a store: the current generation of each, and those that are free. -/
structure Cells where
  generations : Array UInt32
  free : List Nat
deriving DecidableEq

namespace Cells

/-- A reference to a cell that no live node has: the one freed last, or a new one. -/
def draw (c : Cells) : NodeRef × Cells :=
  match c.free with
  | i :: rest => (.cell i (c.generations.getD i 0), { c with free := rest })
  | [] => (.cell c.generations.size 0, { c with generations := c.generations.push 0 })

/-- Takes a cell back and begins its next generation. -/
def release (c : Cells) : NodeRef → Cells
  | .nowhere => c
  | .cell i _ => ⟨c.generations.modify i (· + 1), i :: c.free⟩

end Cells

/-- All live nodes, attached or not. -/
structure Store where
  cells : Cells
  forest : Forest Node
deriving DecidableEq

/-- An operation on a store that may fail; what it did before failing stays done. -/
abbrev StoreM := EStateM DomError Store

namespace Store

/-- The store that holds only the document node. -/
def new : Store := ⟨⟨#[0], []⟩, .node ⟨.root, .document⟩ .nil .nil⟩

/-- The number of live nodes. -/
def len (s : Store) : Nat := s.cells.generations.size - s.cells.free.length

/-- The number of cells, in use or free. -/
def capacity (s : Store) : Nat := s.cells.generations.size

/-- Is the document node the only live one? -/
def isEmpty (s : Store) : Bool := s.len ≤ 1

/-! ## Reading the tree -/

/-- Is this the node with the reference? -/
def is (r : NodeRef) (n : Node) : Bool := n.ref == r

/-- A live node with its children. -/
def tree? (s : Store) (r : NodeRef) : Option (Node × Forest Node) := s.forest.find? (is r)

/-- What a live node is. -/
def get? (s : Store) (r : NodeRef) : Option NodeData := (s.tree? r).map (·.1.data)

/-- The element with a reference, if it is a live element. -/
def element? (s : Store) (r : NodeRef) : Option Element := (s.get? r).bind (·.element?)

/-- The value of an attribute without namespace, if the node is an element that has it. -/
def attribute? (s : Store) (r : NodeRef) (name : String) : Option String :=
  (s.element? r).bind (·.attr? name)

/-- What a node is; a node that is not live is a fault. -/
def node (s : Store) (r : NodeRef) : Except DomError NodeData :=
  match s.get? r with
  | some d => .ok d
  | none => .error (.notFound r)

/-- The element with a reference; anything else is a fault. -/
def element (s : Store) (r : NodeRef) : Except DomError Element := do
  match ← s.node r with
  | .element e => .ok e
  | _ => .error (.notAnElement r)

/-- The children of a node, in order; none when it is not live. -/
def children (s : Store) (r : NodeRef) : List NodeRef :=
  match s.tree? r with
  | some (_, c) => c.roots.map (·.ref)
  | none => []

/-- A node and all below it, in pre-order; nothing when it is not live. -/
def descendants (s : Store) (r : NodeRef) : List NodeRef :=
  match s.tree? r with
  | some (n, c) => n.ref :: c.toList.map (·.ref)
  | none => []

/-- The way from a node up to the top of its tree, the node included; nothing when it is not live. -/
def ancestors (s : Store) (r : NodeRef) : List NodeRef :=
  match s.forest.pathTo? (is r) [] with
  | some path => path.map (·.ref)
  | none => []

/-- The parent of a node, unless it is detached or not live. -/
def parent? (s : Store) (r : NodeRef) : Option NodeRef := (s.ancestors r)[1]?

/-- Is the first node the second or above it? -/
def isInclusiveAncestor (s : Store) (above r : NodeRef) : Bool := (s.ancestors r).contains above

/-- Does the way up from the node end at the document? -/
def isConnected (s : Store) (r : NodeRef) : Bool := (s.ancestors r).getLast? == some .root

/-- The siblings behind a node, in order. -/
def following (s : Store) (r : NodeRef) : List NodeRef :=
  match s.parent? r with
  | some p => ((s.children p).dropWhile (· != r)).tail
  | none => []

/-- The siblings in front of a node, in order. -/
def preceding (s : Store) (r : NodeRef) : List NodeRef :=
  match s.parent? r with
  | some p => (s.children p).takeWhile (· != r)
  | none => []

/-- The first child of a node. -/
def firstChild? (s : Store) (r : NodeRef) : Option NodeRef := (s.children r).head?

/-- The last child of a node. -/
def lastChild? (s : Store) (r : NodeRef) : Option NodeRef := (s.children r).getLast?

/-- The sibling right behind a node. -/
def nextSibling? (s : Store) (r : NodeRef) : Option NodeRef := (s.following r).head?

/-- The sibling right in front of a node. -/
def previousSibling? (s : Store) (r : NodeRef) : Option NodeRef := (s.preceding r).getLast?

/-- The node reached from another by taking the child with each index in turn. -/
def childAtPath? (s : Store) (r : NodeRef) : List Nat → Option NodeRef
  | [] => some r
  | i :: path => ((s.children r)[i]?).bind (s.childAtPath? · path)

/-! ## Creating nodes -/

/-- Adds a detached node. -/
def create (s : Store) (data : NodeData) : NodeRef × Store :=
  let (r, cells) := s.cells.draw
  (r, ⟨cells, .node ⟨r, data⟩ .nil s.forest⟩)

/-- Changes what a node is. -/
def setData (s : Store) (r : NodeRef) (data : NodeData) : Store :=
  { s with forest := s.forest.relabel (is r) fun n => { n with data } }

/-- Fails unless the node is live, and tells what it is. -/
def require (r : NodeRef) : StoreM NodeData := do
  match (← get).get? r with
  | some d => pure d
  | none => throw (.notFound r)

/-- Fails unless the node is a live element, and gives it. -/
def requireElement (r : NodeRef) : StoreM Element := do
  match ← require r with
  | .element e => pure e
  | _ => throw (.notAnElement r)

end Store

end DomHost
