import DomHost.Node.Element
import DomHost.Node.Ref

/-!
# Nodes

* `NodeData`: what a node is, apart from its place in the tree;
* `Node`: a node with the reference it answers to;
* `Property`: the properties that are assigned instead of written as attributes.
-/

namespace DomHost

/-- What a node is, apart from its place in the tree. -/
inductive NodeData where
  | document
  | element (e : Element)
  | text (content : String)
  | comment (content : String)
deriving DecidableEq

namespace NodeData

/-- Is this an element? -/
def isElement : NodeData → Bool
  | element _ => true
  | _ => false

/-- Is this a text? -/
def isText : NodeData → Bool
  | text _ => true
  | _ => false

/-- Is this the document? -/
def isDocument : NodeData → Bool
  | document => true
  | _ => false

/-- May the node have children? -/
def isContainer : NodeData → Bool
  | element _ | document => true
  | _ => false

/-- The element, if it is one. -/
def element? : NodeData → Option Element
  | element e => some e
  | _ => none

/-- The characters of a text node. -/
def text? : NodeData → Option String
  | text s => some s
  | _ => none

end NodeData

/-- A node of the store. -/
structure Node where
  ref : NodeRef
  data : NodeData
deriving DecidableEq

/-- A property that is assigned directly. -/
inductive Property where
  | className | textContent | innerHtml | value | checked
deriving DecidableEq

/-- The name of a property. -/
def Property.name : Property → String
  | className => "className"
  | textContent => "textContent"
  | innerHtml => "innerHTML"
  | value => "value"
  | checked => "checked"

/-- The property with a name. -/
def Property.ofName? : String → Option Property
  | "className" => some className
  | "textContent" => some textContent
  | "innerHTML" => some innerHtml
  | "value" => some value
  | "checked" => some checked
  | _ => none

end DomHost
