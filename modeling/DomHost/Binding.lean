import DomHost.Node.Ref

/-!
# Bindings

The compute module names nodes by numbers of its own. A binding ties one id to one node; an id has at
most one node and a node at most one id.

* `Bindings.get?`, `Bindings.idOf?`: both directions;
* `Bindings.bind`, `Bindings.release`: the edits.
-/

namespace DomHost

/-- The number by which the compute module names a node. -/
structure NodeId where
  number : UInt32
deriving DecidableEq, Inhabited

/-- The text of the comment that stands for a node without content. -/
def placeholderText : String := "placeholder"

/-- The id of the node that the compute module renders into. -/
def NodeId.root : NodeId := ⟨0⟩

/-- An id in messages. -/
def NodeId.describe (id : NodeId) : String := "#" ++ toString id.number.toNat

/-- An id is not bound to a node. -/
structure NotBound where
  id : NodeId
deriving DecidableEq

/-- The text of the fault. -/
def NotBound.message (e : NotBound) : String := "node id " ++ e.id.describe ++ " is not bound"

/-- The node of each id that is bound, and the id of each node. -/
structure Bindings where
  pairs : List (NodeId × NodeRef) := []
  owners : List (NodeRef × NodeId) := []
deriving DecidableEq

namespace Bindings

/-- The node bound to an id. -/
def get? (b : Bindings) (id : NodeId) : Option NodeRef := (b.pairs.find? (·.1 == id)).map (·.2)

/-- The node bound to an id, which has to be there. -/
def get (b : Bindings) (id : NodeId) : Except NotBound NodeRef :=
  match b.get? id with
  | some r => .ok r
  | none => .error ⟨id⟩

/-- The id that a node is bound to. -/
def idOf? (b : Bindings) (node : NodeRef) : Option NodeId :=
  (b.owners.find? (·.1 == node)).map (·.2)

/-- Is the id bound? -/
def contains (b : Bindings) (id : NodeId) : Bool := (b.get? id).isSome

/-- The number of bindings. -/
def count (b : Bindings) : Nat := b.owners.length

/-- Drops the binding of an id, from both sides. -/
def release (b : Bindings) (id : NodeId) : Bindings :=
  match b.get? id with
  | some node => ⟨b.pairs.filter (·.1 != id), b.owners.filter (·.1 != node)⟩
  | none => b

/-- Writes a binding from both sides. -/
def insert (b : Bindings) (id : NodeId) (node : NodeRef) : Bindings :=
  ⟨(id, node) :: b.pairs.filter (·.1 != id), (node, id) :: b.owners.filter (·.1 != node)⟩

/-- Binds an id to a node; what either of them was bound to before is released. -/
def bind (b : Bindings) (id : NodeId) (node : NodeRef) : Bindings :=
  match b.idOf? node with
  | some previous =>
    if previous = id then b else ((b.release previous).release id).insert id node
  | none => (b.release id).insert id node

end Bindings

end DomHost
