/-!
# Node references

A node lives in a numbered cell of the store. Freeing a node raises the generation of its cell, so a
reference to a node that is gone never resolves to the node that took its place.

* `NodeRef`: a cell with a generation, or the reference to no node;
* `NodeRef.root`: the document, which never moves;
* `NodeRef.describe`: the text of a reference in messages.
-/

namespace DomHost

/-- A reference to a node: a cell of the store in one of its generations, or no node at all. -/
inductive NodeRef where
  | nowhere
  | cell (index : Nat) (generation : UInt32)
deriving DecidableEq, Inhabited

namespace NodeRef

/-- The document node is the first cell in its first generation. -/
def root : NodeRef := .cell 0 0

/-- Does the reference name a cell? -/
def isValid : NodeRef → Bool
  | nowhere => false
  | cell _ _ => true

/-- The cell and the generation; the reference to no node shows the largest 32-bit index. -/
def describe : NodeRef → String
  | nowhere => "NodeRef \x7b index: 4294967295, generation: 0 \x7d"
  | cell i g => "NodeRef \x7b index: " ++ toString i ++ ", generation: " ++ toString g.toNat ++ " \x7d"

/-- The reference to no node, read as an absent reference. -/
def toOption : NodeRef → Option NodeRef
  | nowhere => none
  | r => some r

end NodeRef

end DomHost
