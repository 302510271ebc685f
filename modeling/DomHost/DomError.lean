import DomHost.Node.Basic
import DomHost.Text.Quoted

/-!
# Faults of document operations

* `HierarchyFault`: the ways in which an edit would break the shape of the tree;
* `DomError`: the faults of a document operation;
* `DomError.name`, `DomError.message`: their names and texts.
-/

namespace DomHost

/-- The ways in which an edit would break the shape of the tree. -/
inductive HierarchyFault where
  | parentIsLeaf
  | documentInserted
  | cycle
  | textUnderDocument
  | documentCloned
  | documentFreed
  | nodeIsLeaf
deriving DecidableEq

/-- The text of a hierarchy fault. -/
def HierarchyFault.message : HierarchyFault → String
  | parentIsLeaf => "parent cannot have children"
  | documentInserted => "document cannot be inserted"
  | cycle => "node is an ancestor of the parent"
  | textUnderDocument => "text cannot be a document child"
  | documentCloned => "document cannot be cloned"
  | documentFreed => "document cannot be freed"
  | nodeIsLeaf => "node cannot have children"

/-- A fault of a document operation. -/
inductive DomError where
  | notFound (node : NodeRef)
  | hierarchyRequest (fault : HierarchyFault)
  | notAChild (parent child : NodeRef)
  | idNotFound (id : String)
  | invalidCharacter (name : String)
  | namespaceMismatch (name : String) (ns : Option String)
  | notAnElement (node : NodeRef)
  | notAForm (node : NodeRef)
  | notSupported (property : Property)
deriving DecidableEq

/-- The name of a fault. -/
def DomError.name : DomError → String
  | notFound _ => "NotFound"
  | hierarchyRequest _ => "HierarchyRequest"
  | notAChild .. => "NotAChild"
  | idNotFound _ => "IdNotFound"
  | invalidCharacter _ => "InvalidCharacter"
  | namespaceMismatch .. => "Namespace"
  | notAnElement _ => "NotAnElement"
  | notAForm _ => "NotAForm"
  | notSupported _ => "NotSupported"

/-- The text of a fault. -/
def DomError.message : DomError → String
  | notFound n => "node " ++ n.describe ++ " not found"
  | hierarchyRequest f => "hierarchy request error: " ++ f.message
  | notAChild parent child =>
    "node " ++ child.describe ++ " is not a child of " ++ parent.describe
  | idNotFound id => "no element with id " ++ Text.quoted id
  | invalidCharacter name => "invalid character in name " ++ Text.quoted name
  | namespaceMismatch name ns =>
    "namespace error for " ++ Text.quoted name ++ " in " ++ Text.quotedOption ns
  | notAnElement n => "node " ++ n.describe ++ " is not an element"
  | notAForm n => "node " ++ n.describe ++ " is not a form element"
  | notSupported p => "property " ++ p.name ++ " is not supported here"

end DomHost
