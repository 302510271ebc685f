import DomHost.Store.Create
import DomHost.Store.Edit

/-!
# Attributes, style and text

* `Store.setAttribute`, `setAttributeNs`, `removeAttribute`, `toggleAttribute`: the attributes of an
  element; on HTML elements names without namespace are lowercased;
* `Store.setStyle`: one style declaration;
* `Store.textContent`, `Store.setTextContent`: the text of a node.
-/

namespace DomHost.Store

/-- Changes an element. -/
def updateElement (r : NodeRef) (f : Element → Element) : StoreM Unit := do
  let e ← requireElement r
  modify (·.setData r (.element (f e)))

/-- The local name under which an element keeps an attribute written without namespace. -/
def attributeName (e : Element) (name : String) : String :=
  if e.ns.isNone then name.toLower else name

/-- Sets an attribute without namespace. -/
def setAttribute (r : NodeRef) (name value : String) : StoreM Unit := do
  liftResult (validateName name)
  updateElement r fun e => e.setAttr (.plain (attributeName e name) value)

/-- Sets an attribute in a namespace. -/
def setAttributeNs (r : NodeRef) (ns : Option String) (name value : String) : StoreM Unit := do
  let q ← liftResult (QualifiedName.extract ns name)
  updateElement r fun e => e.setAttr ⟨q.localName, q.qualifier, q.ns, value⟩

/-- What stands behind the last colon of a name. -/
def behindLastColon (name : String) : String :=
  String.ofList (name.toList.reverse.takeWhile (· != ':')).reverse

/-- Removes an attribute, if it is there. In a namespace the name may be qualified. -/
def removeAttribute (r : NodeRef) (ns : Option String) (name : String) : StoreM Unit :=
  updateElement r fun e =>
    match ns with
    | some _ => e.removeAttr (effectiveNs ns) (behindLastColon name)
    | none => e.removeAttr none (attributeName e name)

/-- Removes the attribute with exactly this namespace and local name; tells whether there was one. -/
def removeExactAttribute (r : NodeRef) (ns : Option String) (localName : String) : StoreM Bool := do
  let e ← requireElement r
  modify (·.setData r (.element (e.removeAttr ns localName)))
  pure (e.attrNs? ns localName).isSome

/-- Toggles a boolean attribute, or forces it on or off; tells whether it is on afterwards. -/
def toggleAttribute (r : NodeRef) (name : String) (force : Option Bool) : StoreM Bool := do
  liftResult (validateName name)
  let present := (← requireElement r).hasAttr name.toLower
  let want := force.getD (!present)
  if want && !present then setAttribute r name ""
  else if !want && present then removeAttribute r none name
  pure want

/-- Declares a style property of an element; the empty value removes it. -/
def setStyle (r : NodeRef) (property value : String) : StoreM Unit :=
  updateElement r (·.declare property value)

/-- The text of a text or comment; of any other node, the texts below it one after the other. -/
def textContent (s : Store) (r : NodeRef) : String :=
  match s.tree? r with
  | some (⟨_, .text t⟩, _) => t
  | some (⟨_, .comment t⟩, _) => t
  | some (_, c) => String.join (c.toList.filterMap (·.data.text?))
  | none => ""

/-- Replaces the text of a text or comment, and the children of an element by a single text, or by
none when it is empty. The document keeps its children. -/
def setTextContent (r : NodeRef) (text : String) : StoreM Unit := do
  match ← require r with
  | .text _ => modify (·.setData r (.text text))
  | .comment _ => modify (·.setData r (.comment text))
  | .document => pure ()
  | .element _ =>
    clearChildren r
    unless text.isEmpty do
      let child ← createText text
      modify (·.place r child none)

end DomHost.Store
