import DomHost.Name
import DomHost.Store.Basic

/-!
# Creating nodes

* `Store.createElement`: an HTML element, whose tag is lowercased;
* `Store.createElementNs`: an element with a qualified name in a namespace, which has to be valid;
* `Store.createText`, `Store.createComment`: the leaves.
-/

namespace DomHost

/-- Carries a result without state into an operation on a state. -/
def liftResult {ε σ α : Type} : Except ε α → EStateM ε σ α
  | .ok a => pure a
  | .error e => throw e

namespace Store

/-- The element that a tag names in HTML. -/
def htmlElement (tag : String) : Element := ⟨tag.toLower, none, none, [], [], {}⟩

/-- The element that a qualified name names. A name of the HTML namespace without qualifier names
a plain HTML element. -/
def namedElement (name : QualifiedName) : Element :=
  if name.ns = some htmlNs ∧ name.qualifier = none then htmlElement name.localName
  else ⟨name.localName, name.qualifier, name.ns, [], [], {}⟩

/-- Creates an HTML element. -/
def createElement (tag : String) : StoreM NodeRef := modifyGet (·.create (.element (htmlElement tag)))

/-- Creates an element in a namespace. -/
def createElementNs (ns : Option String) (name : String) : StoreM NodeRef := do
  let name ← liftResult (QualifiedName.extract ns name)
  modifyGet (·.create (.element (namedElement name)))

/-- Creates a text. -/
def createText (text : String) : StoreM NodeRef := modifyGet (·.create (.text text))

/-- Creates a comment. -/
def createComment (text : String) : StoreM NodeRef := modifyGet (·.create (.comment text))

end Store

end DomHost
