import DomHost.Forest
import DomHost.Name

/-!
# Items of parsed markup

Markup is read into a forest of items. An item keeps what the text says: namespaces are spelled out and
document types and processing instructions are still there.

* `ReadAttribute`: an attribute of a tag; only a name with a qualifier is in a namespace;
* `Item`: what stands at one place of parsed markup.
-/

namespace DomHost.Markup

/-- The namespace of MathML elements. -/
def mathNs : String := "http://www.w3.org/1998/Math/MathML"

/-- An attribute of a tag. Its name has a qualifier exactly if it is in a namespace, which is not empty. -/
structure ReadAttribute extends Attribute where
  bound : qualifier.isSome = ns.isSome
  spelled : ns ≠ some ""
deriving DecidableEq

/-- An attribute without namespace and qualifier. -/
def ReadAttribute.plain (name value : String) : ReadAttribute := ⟨.plain name value, rfl, nofun⟩

/-- What stands at one place of parsed markup. The empty namespace of an element stands for none. -/
inductive Item where
  | element (localName : String) (qualifier : Option String) (ns : String)
      (attributes : List ReadAttribute)
  | text (content : String)
  | comment (content : String)
  | documentType (name : String)
  | instruction (target content : String)
deriving DecidableEq

end DomHost.Markup
