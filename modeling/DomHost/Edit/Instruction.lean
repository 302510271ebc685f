import DomHost.Binding
import DomHost.Listener
import DomHost.Node.Basic

/-!
# Edit instructions

What the compute module asks the host to do with the document, and the flat descriptions of the
templates it defines.

* `Instruction`: the nineteen instructions;
* `Descriptor`: a node of a template, in pre-order, each element with the number of its children;
* `CallbackId`, `CallbackId.handler`: the closures that listeners call.
-/

namespace DomHost

/-- The number by which the compute module names a closure. -/
structure CallbackId where
  number : UInt32
deriving DecidableEq, Inhabited

/-- The handler of the listeners that call a closure. -/
def CallbackId.handler (c : CallbackId) : HandlerId := ⟨c.number.toUInt64⟩

/-- A closure in messages. -/
def CallbackId.describe (c : CallbackId) : String :=
  "CallbackId(" ++ toString c.number.toNat ++ ")"

/-- An attribute of an element of a template. -/
structure TemplateAttribute where
  name : String
  value : String
  ns : Option String
deriving DecidableEq

/-- A node of a template. -/
inductive Descriptor where
  | element (tag : String) (ns : Option String) (attributes : List TemplateAttribute)
      (childCount : UInt32) (slot : Bool)
  | text (text : String)
  | dynamicText
  | placeholder
deriving DecidableEq

namespace Descriptor

/-- Does an instance of the template bind this node to an id? -/
def isSlot : Descriptor → Bool
  | element _ _ _ _ slot => slot
  | text _ => false
  | dynamicText | placeholder => true

/-- The number of descriptors that follow as children. -/
def childCount : Descriptor → Nat
  | element _ _ _ n _ => n.toNat
  | _ => 0

end Descriptor

/-- An edit instruction. -/
inductive Instruction where
  | createElement (id : NodeId) (tag : String) (ns : Option String)
  | createText (id : NodeId) (text : String)
  | createPlaceholder (id : NodeId)
  | loadTemplate (template : UInt32) (id : NodeId) (slots : List NodeId)
  | saveTemplate (template : UInt32) (nodes : List Descriptor)
  | bindElementById (id : NodeId) (domId : String)
  | setAttribute (id : NodeId) (name value : String) (ns : Option String)
  | removeAttribute (id : NodeId) (name : String) (ns : Option String)
  | toggleAttribute (id : NodeId) (name : String) (force : Option Bool)
  | setStyle (id : NodeId) (property value : String)
  | setProperty (id : NodeId) (property : Property) (value : String)
  | appendChildren (parent : NodeId) (children : List NodeId)
  | insertBefore (reference : NodeId) (nodes : List NodeId)
  | insertAfter (reference : NodeId) (nodes : List NodeId)
  | remove (id : NodeId)
  | replaceWith (id : NodeId) (nodes : List NodeId)
  | freeId (id : NodeId)
  | addListener (id : NodeId) (name : String) (callback : CallbackId) (capture : Bool)
  | removeListener (id : NodeId) (name : String) (callback : CallbackId) (capture : Bool)
deriving DecidableEq

end DomHost
