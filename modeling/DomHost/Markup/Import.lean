import DomHost.Document.Basic
import DomHost.Markup.Parse
import DomHost.Text.Blank

/-!
# From markup to nodes

Parsed trees become nodes in pre-order. Document types and processing instructions have no counterpart;
the HTML namespace is none; the attribute `style` becomes the declaration list of its element.

* `Markup.declarations`: the declarations that a style attribute writes;
* `Markup.image`: the nodes of parsed trees;
* `Store.plant`: a new tree of a store;
* `Document.ofMarkup`, `Document.ofHtml`, `Document.addFragment`: documents and fragments from text.
-/

namespace DomHost

namespace Markup

/-- Splits characters at the first one that is `sep`. -/
def splitFirst? (sep : Char) (cs : List Char) : Option (List Char × List Char) :=
  if cs.contains sep then some (cs.takeWhile (· != sep), (cs.dropWhile (· != sep)).drop 1) else none

/-- Splits characters at every one that is `sep`. -/
def splitAll (sep : Char) : List Char → List (List Char)
  | [] => [[]]
  | c :: cs =>
    match splitAll sep cs with
    | part :: parts => if c = sep then [] :: part :: parts else (c :: part) :: parts
    | [] => [[c]]

/-- A declaration; without a name or a value it is none. -/
def declaration? (cs : List Char) : Option (String × String) := do
  let (name, value) ← splitFirst? ':' cs
  let name := lowered (Text.trimChars name)
  let value := String.ofList (Text.trimChars value)
  if name.isEmpty || value.isEmpty then none else some (name, value)

/-- The declarations of a style attribute, in order. -/
def declarations (s : String) : List (String × String) :=
  (splitAll ';' s.toList).filterMap declaration?

/-- Puts an attribute of parsed markup on an element. -/
def adoptAttribute (e : Element) (a : ReadAttribute) : Element :=
  if a.ns = none ∧ a.localName = "style" then { e with style := declarations a.value }
  else e.setAttr a.toAttribute

/-- What an item becomes, if it has a counterpart. -/
def Item.data? : Item → Option NodeData
  | element localName qualifier ns attributes =>
    let ns := if ns = "" ∨ ns = htmlNs then none else some ns
    some (.element (attributes.foldl adoptAttribute ⟨localName, qualifier, ns, [], [], {}⟩))
  | text s => some (.text s)
  | comment s => some (.comment s)
  | documentType _ | instruction _ _ => none

/-- The nodes that parsed trees become. Only elements have children. -/
def image : Forest Item → Forest NodeData
  | .nil => .nil
  | .node i c n =>
    match i.data? with
    | some d => .node d (if d.isElement then image c else .nil) (image n)
    | none => image n

end Markup

namespace Store

/-- A node with the given data in a cell of its own. -/
def embody (data : NodeData) (cells : Cells) : Node × Cells :=
  let (r, cells) := cells.draw
  (⟨r, data⟩, cells)

/-- Adds a detached tree, in cells drawn in pre-order. -/
def plant (s : Store) (data : NodeData) (children : Forest NodeData) : NodeRef × Store :=
  let (n, cells) := embody data s.cells
  let (c, cells) := children.rename embody cells
  (n.ref, ⟨cells, .node n c s.forest⟩)

/-- Adds trees, each handed on as soon as it is there. -/
def plantEach (use : NodeRef → StoreM Unit) : Forest NodeData → StoreM (List NodeRef)
  | .nil => pure []
  | .node d c next => do
    let r ← modifyGet (·.plant d c)
    use r
    pure (r :: (← plantEach use next))

end Store

namespace Document

/-- The document with parsed trees at its top. -/
def ofMarkup (parsed : Forest Markup.Item) : Except DomError Document :=
  match Store.plantEach (Store.appendChild .root) (Markup.image parsed) empty.store with
  | .ok _ s => .ok { empty with store := s }.finalize
  | .error e _ => .error e

/-- The document that a text writes. -/
def ofHtml (html : String) : Except DomError Document := ofMarkup (Markup.parseDocument html)

/-- Adds the detached trees that a text writes inside a given element. -/
def addFragment (context : NodeRef) (html : String) : DocumentM (List NodeRef) := do
  let e ← Store.requireElement context
  let parsed := Markup.parseFragment e.localName (e.ns.getD htmlNs) html
  Store.plantEach (fun _ => pure ()) (Markup.image parsed)

end Document

/-- The text of a fault met while markup becomes a tree. -/
def DomError.markupMessage (e : DomError) : String := "could not build tree: " ++ e.message

end DomHost
