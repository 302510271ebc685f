import DomHost.Markup.Token
import DomHost.Markup.Item

/-!
# Names in SVG and MathML

Tags are read in lowercase; inside SVG and MathML the names that are not get their capitals back, and
some attributes get a namespace.

* `svgTagName`, `foreignAttribute`: the names as they are kept;
* `breaksOut`: the tags that end a foreign subtree.
-/

namespace DomHost.Markup

/-- The SVG elements with capitals in their names. -/
def svgTagNames : List String :=
  ["altGlyph", "altGlyphDef", "altGlyphItem", "animateColor", "animateMotion", "animateTransform",
    "clipPath", "feBlend", "feColorMatrix", "feComponentTransfer", "feComposite", "feConvolveMatrix",
    "feDiffuseLighting", "feDisplacementMap", "feDistantLight", "feDropShadow", "feFlood", "feFuncA",
    "feFuncB", "feFuncG", "feFuncR", "feGaussianBlur", "feImage", "feMerge", "feMergeNode",
    "feMorphology", "feOffset", "fePointLight", "feSpecularLighting", "feSpotLight", "feTile",
    "feTurbulence", "foreignObject", "glyphRef", "linearGradient", "radialGradient", "textPath"]

/-- The SVG attributes with capitals in their names. -/
def svgAttributeNames : List String :=
  ["attributeName", "attributeType", "baseFrequency", "baseProfile", "calcMode", "clipPathUnits",
    "diffuseConstant", "edgeMode", "filterUnits", "glyphRef", "gradientTransform", "gradientUnits",
    "kernelMatrix", "kernelUnitLength", "keyPoints", "keySplines", "keyTimes", "lengthAdjust",
    "limitingConeAngle", "markerHeight", "markerUnits", "markerWidth", "maskContentUnits",
    "maskUnits", "numOctaves", "pathLength", "patternContentUnits", "patternTransform",
    "patternUnits", "pointsAtX", "pointsAtY", "pointsAtZ", "preserveAlpha", "preserveAspectRatio",
    "primitiveUnits", "refX", "refY", "repeatCount", "repeatDur", "requiredExtensions",
    "requiredFeatures", "specularConstant", "specularExponent", "spreadMethod", "startOffset",
    "stdDeviation", "stitchTiles", "surfaceScale", "systemLanguage", "tableValues", "targetX",
    "targetY", "textLength", "viewBox", "viewTarget", "xChannelSelector", "yChannelSelector",
    "zoomAndPan"]

/-- The name of a list that a lowercase name stands for, or the name itself. -/
def withCapitals (names : List String) (name : String) : String :=
  (names.find? (·.toLower == name)).getD name

/-- The name of an SVG element. -/
def svgTagName (name : String) : String := withCapitals svgTagNames name

/-- The namespace of XLink attributes. -/
def xlinkNs : String := "http://www.w3.org/1999/xlink"

/-- The attributes that are in a namespace: as they are read, with qualifier, namespace and name. -/
def qualifiedAttributes : List (String × String × String × String) :=
  (["actuate", "arcrole", "href", "role", "show", "title", "type"].map fun n =>
    ("xlink:" ++ n, "xlink", xlinkNs, n)) ++
  [("xml:lang", "xml", xmlNs, "lang"), ("xml:space", "xml", xmlNs, "space"),
    ("xmlns", "", xmlnsNs, "xmlns"), ("xmlns:xlink", "xmlns", xmlnsNs, "xlink")]

theorem ns_ne_of_lookup {name q ns localName : String}
    (h : qualifiedAttributes.lookup name = some (q, ns, localName)) : some ns ≠ some "" := by
  have hall : ∀ a ∈ qualifiedAttributes, a.2.2.1 ≠ "" := by decide
  obtain ⟨before, behind, hsplit, -⟩ := List.lookup_eq_some_iff.mp h
  intro he
  exact hall (name, q, ns, localName) (by simp [hsplit]) (Option.some.inj he)

/-- An attribute of an element outside HTML. -/
def foreignAttribute (ns : String) (name value : String) : ReadAttribute :=
  match h : qualifiedAttributes.lookup name with
  | some (q, attrNs, localName) => ⟨⟨localName, some q, some attrNs, value⟩, rfl, ns_ne_of_lookup h⟩
  | none =>
    if ns = svgNs then .plain (withCapitals svgAttributeNames name) value
    else if ns = mathNs ∧ name = "definitionurl" then .plain "definitionURL" value
    else .plain name value

/-- The start tags that end a foreign subtree. -/
def breakoutTags : List String :=
  ["b", "big", "blockquote", "body", "br", "center", "code", "dd", "div", "dl", "dt", "em", "embed",
    "h1", "h2", "h3", "h4", "h5", "h6", "head", "hr", "i", "img", "li", "listing", "menu", "meta",
    "nobr", "ol", "p", "pre", "ruby", "s", "small", "span", "strong", "strike", "sub", "sup", "table",
    "tt", "u", "ul", "var"]

/-- Does a token end the foreign subtree it stands in? -/
def breaksOut : Token → Bool
  | .startTag t =>
    breakoutTags.contains t.name ||
      (t.name == "font" && t.attributes.any fun a => ["color", "face", "size"].contains a.1)
  | .endTag name => name == "br" || name == "p"
  | _ => false

end DomHost.Markup
