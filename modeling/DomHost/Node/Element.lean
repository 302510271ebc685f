/-!
# Elements

An element is a qualified name with attributes, inline style declarations and the state of a form
control. Attributes are keyed by namespace and local name, declarations by property name; both keep
the order in which they were first written.

* `ElementKind.resolve`: what a form looks at instead of tag names;
* `Attribute`, `Attribute.hasKey`: attributes and their keys;
* `Element.attr?`, `Element.setAttr`, `Element.removeAttr`: the attributes as a keyed list;
* `Element.declare`, `Element.styleText`: the declarations as a keyed list, and their text.
-/

namespace DomHost

/-- The namespace of HTML elements. -/
def htmlNs : String := "http://www.w3.org/1999/xhtml"

/-- The part an element plays in a form. -/
inductive ElementKind where
  | input | select | textArea | form | selectOption | generic
deriving DecidableEq

namespace ElementKind

/-- The kind of an element; outside HTML every element is generic. -/
def resolve (localName : String) (ns : Option String) : ElementKind :=
  if ns.any (· != htmlNs) then generic
  else if localName = "input" then input
  else if localName = "select" then select
  else if localName = "textarea" then textArea
  else if localName = "form" then form
  else if localName = "option" then selectOption
  else generic

/-- The name of a kind. -/
def name : ElementKind → String
  | input => "Input"
  | select => "Select"
  | textArea => "TextArea"
  | form => "Form"
  | selectOption => "SelectOption"
  | generic => "Generic"

/-- Does an element of this kind hold a value of a form? -/
def isFormControl : ElementKind → Bool
  | input | select | textArea => true
  | _ => false

end ElementKind

/-- A file, picked by a user or carried by a form. -/
structure FileEntry where
  name : String
  mimeType : String
  content : List UInt8
  lastModified : UInt64
deriving DecidableEq

/-- The file that a file input contributes when nothing is picked. -/
def FileEntry.unpicked : FileEntry := ⟨"", "application/octet-stream", [], 0⟩

/-- A name as it is written: behind its qualifier and a colon, if it has one. -/
def qualified (qualifier : Option String) (localName : String) : String :=
  match qualifier with
  | some q => q ++ ":" ++ localName
  | none => localName

/-! ## Attributes -/

/-- An attribute. -/
structure Attribute where
  localName : String
  qualifier : Option String
  ns : Option String
  value : String
deriving DecidableEq

namespace Attribute

/-- An attribute without namespace and qualifier. -/
def plain (name value : String) : Attribute := ⟨name, none, none, value⟩

/-- The name as it is written. -/
def qualifiedName (a : Attribute) : String := qualified a.qualifier a.localName

/-- Is this the attribute with the given namespace and local name? -/
def hasKey (a : Attribute) (ns : Option String) (localName : String) : Bool :=
  a.ns == ns && a.localName == localName

end Attribute

/-- Live state of a form control. An absent value falls back to the attributes. -/
structure ControlState where
  value : Option String := none
  checked : Option Bool := none
  selected : Option Bool := none
  files : List FileEntry := []
deriving DecidableEq

/-- An element without its children. -/
structure Element where
  localName : String
  qualifier : Option String
  ns : Option String
  attributes : List Attribute := []
  style : List (String × String) := []
  control : ControlState := {}
deriving DecidableEq

namespace Element

/-- The part the element plays in a form, which its name alone decides. -/
def kind (e : Element) : ElementKind := .resolve e.localName e.ns

/-- The tag name as it is written. -/
def qualifiedName (e : Element) : String := qualified e.qualifier e.localName

/-- The value of the attribute with a namespace and local name. -/
def attrNs? (e : Element) (ns : Option String) (localName : String) : Option String :=
  (e.attributes.find? (·.hasKey ns localName)).map (·.value)

/-- The value of an attribute without namespace. -/
def attr? (e : Element) (name : String) : Option String := e.attrNs? none name

/-- Is there an attribute of this name without namespace? -/
def hasAttr (e : Element) (name : String) : Bool := (e.attr? name).isSome

/-- Writes an attribute into a list: over the value of the same key, or at the end. -/
def writeAttr (a : Attribute) : List Attribute → List Attribute
  | [] => [a]
  | b :: rest =>
    if b.hasKey a.ns a.localName then { b with value := a.value } :: rest
    else b :: writeAttr a rest

/-- Sets an attribute; an existing one keeps its place and the name it was written with. -/
def setAttr (e : Element) (a : Attribute) : Element :=
  { e with attributes := writeAttr a e.attributes }

/-- Removes the attribute with a namespace and local name, if there is one. -/
def removeAttr (e : Element) (ns : Option String) (localName : String) : Element :=
  { e with attributes := e.attributes.filter fun a => !a.hasKey ns localName }

/-! ## Inline style -/

/-- The value declared for a style property. -/
def declaration? (e : Element) (property : String) : Option String :=
  (e.style.find? (·.1 == property)).map (·.2)

/-- Writes a declaration into a list: over the same property, or at the end. -/
def writeDeclaration (property value : String) : List (String × String) → List (String × String)
  | [] => [(property, value)]
  | (p, v) :: rest =>
    if p == property then (p, value) :: rest else (p, v) :: writeDeclaration property value rest

/-- Declares a style property; the empty value removes its declarations. -/
def declare (e : Element) (property value : String) : Element :=
  if value.isEmpty then { e with style := e.style.filter (·.1 != property) }
  else { e with style := writeDeclaration property value e.style }

/-- The text of a declaration list. -/
def declarationsText (decls : List (String × String)) : String :=
  String.intercalate " " (decls.map fun (p, v) => p ++ ": " ++ v ++ ";")

/-- The text of the declarations, if there are any. -/
def styleText (e : Element) : Option String :=
  if e.style.isEmpty then none else some (declarationsText e.style)

end Element

end DomHost
