import DomHost.Document.Basic

/-!
# The text of a document

A node is written as HTML. Attribute values and texts are escaped, except for the texts right under an
element whose content is raw; void elements have no content and no end tag; the declarations of an
element follow its attributes as one more attribute `style`.

* `escapeText`, `escapeValue`: the escapes;
* `writeForest`: the text of trees;
* `Document.outerHtml`, `Document.innerHtml`: the text of a node, with and without its own tags.
-/

namespace DomHost

namespace Html

/-- The elements without content. -/
def voidElements : List String :=
  ["area", "base", "br", "col", "embed", "hr", "img", "input", "link", "meta", "source", "track",
    "wbr"]

/-- The elements whose texts are written as they are. -/
def rawTextElements : List String :=
  ["style", "script", "xmp", "iframe", "noembed", "noframes", "plaintext"]

/-- A character of a text. -/
def escapeTextChar : Char → String
  | '&' => "&amp;"
  | '<' => "&lt;"
  | '>' => "&gt;"
  | '\u00a0' => "&nbsp;"
  | c => c.toString

/-- A character of an attribute value. -/
def escapeValueChar : Char → String
  | '&' => "&amp;"
  | '"' => "&quot;"
  | '\u00a0' => "&nbsp;"
  | c => c.toString

/-- A text as it is written. -/
def escapeText (s : String) : String := String.join (s.toList.map escapeTextChar)

/-- An attribute value as it is written between double quotes. -/
def escapeValue (s : String) : String := String.join (s.toList.map escapeValueChar)

/-- Has the element a name of the list, outside all namespaces? -/
def isNamed (names : List String) (e : Element) : Bool := e.ns.isNone && names.contains e.localName

/-- Is this an element whose texts are written as they are? -/
def holdsRawText (d : NodeData) : Bool := d.element?.any (isNamed rawTextElements)

/-- An attribute, behind a space. -/
def attributeText (name value : String) : String := " " ++ name ++ "=\"" ++ escapeValue value ++ "\""

/-- The attributes of an element and its declarations. -/
def attributesText (e : Element) : String :=
  String.join (e.attributes.map fun a => attributeText a.qualifiedName a.value) ++
    (match e.styleText with
      | some s => attributeText "style" s
      | none => "")

/-- The start tag of an element. -/
def startTag (e : Element) : String := "<" ++ e.qualifiedName ++ attributesText e ++ ">"

/-- The end tag of an element. -/
def endTag (e : Element) : String := "</" ++ e.qualifiedName ++ ">"

/-- Writes trees behind `out`; `raw` tells whether texts of the top level are written as they are. -/
def writeForest : Forest Node → (raw : Bool) → (out : String) → String
  | .nil, _, out => out
  | .node n c next, raw, out =>
    writeForest next raw <|
      match n.data with
      | .document => writeForest c false out
      | .text t => out ++ (if raw then t else escapeText t)
      | .comment t => out ++ "<!--" ++ t ++ "-->"
      | .element e =>
        if isNamed voidElements e then out ++ startTag e
        else writeForest c (isNamed rawTextElements e) (out ++ startTag e) ++ endTag e

end Html

namespace Document

/-- The text of a node; a node that is not live has none. -/
def outerHtml (d : Document) (r : NodeRef) : String :=
  match d.store.tree? r with
  | none => ""
  | some (n, c) =>
    let raw := (d.store.parent? r).any fun p => (d.store.get? p).any Html.holdsRawText
    Html.writeForest (.node n c .nil) raw ""

/-- The text of the children of a node. -/
def innerHtml (d : Document) (r : NodeRef) : String :=
  match d.store.tree? r with
  | none => ""
  | some (n, c) => Html.writeForest c (Html.holdsRawText n.data) ""

end Document

end DomHost
