import DomHost.Markup.Content
import DomHost.Markup.Draft
import DomHost.Markup.Foreign

/-!
# The stack of open elements

A tree is built along the stack of its open elements. What the next token does depends on the stack, on
a mode, which says where in a document the text has come to, and on the formatting elements that go on
behind an end tag out of order.

* `Open`, `Mode`, `Builder`: open elements, modes, and all that is known while a tree is built;
* `Builder.reaches`: whether an element is open, looking no further than a given kind of element;
* `Builder.spot`: where the next branch is put;
* `enter`, `leave`, `leaveThrough`, `impliedEnds`: the edits.
-/

namespace DomHost.Markup

/-- An open element: its branch and its name. Some annotations of formulas hold HTML. -/
structure Open where
  id : Nat
  name : String
  ns : String
  holdsHtml : Bool := false
deriving DecidableEq

namespace Open

/-- Is this an HTML element with one of the names? -/
def isHtml (names : List String) (o : Open) : Bool := o.ns == htmlNs && names.contains o.name

/-- Is this a part of a formula that holds text? -/
def isFormulaText (o : Open) : Bool :=
  o.ns == mathNs && ["mi", "mo", "mn", "ms", "mtext"].contains o.name

/-- Is this a part of a drawing that holds HTML? -/
def isDrawingText (o : Open) : Bool :=
  o.ns == svgNs && ["foreignObject", "desc", "title"].contains o.name

end Open

/-- Where in a document, or in which kind of element, the text has come to. -/
inductive Mode where
  | initial | beforeHtml | beforeHead | inHead | afterHead | inBody | text
  | inTable | inTableText | inCaption | inColumnGroup | inTableBody | inRow | inCell
  | inSelect | inSelectInTable | inTemplate
  | afterBody | inFrameset | afterFrameset | afterAfterBody | afterAfterFrameset
deriving DecidableEq

/-- A formatting element and the tag that opened it. -/
structure Formatted where
  element : Open
  tag : Tag
deriving DecidableEq

/-- All that is known while a tree is built. The innermost element comes first on the stack, and the
newest one first among the formatting elements, where `none` is a barrier. -/
structure Builder where
  draft : Draft := {}
  opened : List Open := []
  formatting : List (Option Formatted) := []
  mode : Mode
  /-- The mode behind a text. -/
  back : Mode := .initial
  templateModes : List Mode := []
  /-- What a table holds between its parts, last character first. -/
  tableText : List Char := []
  head? : Option Open := none
  form? : Option Open := none
  /-- The element around a fragment. -/
  context? : Option Open := none
  /-- Does a table leave an open paragraph open? -/
  loose : Bool := false
  framesetOk : Bool := true
  dropLineFeed : Bool := false
  /-- Does what stands in a table go in front of it? -/
  fostering : Bool := false
  holds : Content := .markup

/-- What is done while a tree is built. -/
abbrev Build := StateM Builder

namespace Builder

/-- The element that is open innermost. -/
def current (b : Builder) : Open := b.opened.headD ⟨0, "", "", false⟩

/-- The element that tells how the next token is read: the innermost one, or the one around a
fragment. -/
def surrounding (b : Builder) : Open :=
  match b.context?, b.opened with
  | some c, [_] => c
  | _, _ => b.current

/-- Is the next token read inside SVG or MathML? -/
def inForeign (b : Builder) : Bool := !b.opened.isEmpty && b.surrounding.ns != htmlNs

/-- Is the innermost element an HTML element with one of the names? -/
def currentIs (b : Builder) (names : List String) : Bool := b.current.isHtml names

/-- Is an HTML element with one of the names open? -/
def hasOpen (b : Builder) (names : List String) : Bool := b.opened.any (·.isHtml names)

/-- Is this element open? -/
def isOpen (b : Builder) (o : Open) : Bool := b.opened.any (·.id == o.id)

/-! ## Scopes -/

/-- Is there an open element that passes the test, looking from the innermost one no further than the
first that passes `stop`? -/
def reachesIn (stop goal : Open → Bool) : List Open → Bool
  | [] => false
  | o :: os => goal o || (!stop o && reachesIn stop goal os)

/-- Is an HTML element with one of the names open, no further than the first that passes `stop`? -/
def reaches (b : Builder) (stop : Open → Bool) (names : List String) : Bool :=
  reachesIn stop (·.isHtml names) b.opened

/-- The elements that hide those around them. -/
def hides (o : Open) : Bool :=
  o.isHtml ["applet", "caption", "html", "table", "td", "th", "marquee", "object", "template"] ||
    o.isFormulaText || o.isDrawingText

/-- The elements that hide list items around them. -/
def hidesItems (o : Open) : Bool := hides o || o.isHtml ["ol", "ul"]

/-- The elements that hide paragraphs around them. -/
def hidesParagraphs (o : Open) : Bool := hides o || o.isHtml ["button"]

/-- The elements that hide the parts of a table around them. -/
def hidesTables (o : Open) : Bool := o.isHtml ["html", "table", "template"]

/-- The elements that hide selections around them. -/
def hidesSelects (o : Open) : Bool := !o.isHtml ["optgroup", "option"]

/-! ## Where branches are put -/

/-- The parts of a table that hold only other parts. -/
def tableParts : List String := ["table", "tbody", "tfoot", "thead", "tr"]

/-- The spot in front of the innermost table, or inside the innermost template. -/
def fosterSpot : List Open → Spot
  | [] => .inside 0
  | [o] => .inside o.id
  | o :: os =>
    if o.isHtml ["template"] then .inside o.id
    else if o.isHtml ["table"] then .before o.id
    else fosterSpot os

/-- Where a branch is put that belongs to an open element. -/
def spotIn (b : Builder) (o : Open) : Spot :=
  if b.fostering && o.isHtml tableParts then fosterSpot b.opened else .inside o.id

/-- Where the next branch is put. -/
def spot (b : Builder) : Spot := b.spotIn b.current

/-! ## The mode of a stack -/

/-- The mode for the inside of the selection below which the given elements are open. -/
def modeOfSelect : List Open → Mode
  | [] => .inSelect
  | o :: os =>
    if o.isHtml ["template"] then .inSelect
    else if o.isHtml ["table"] then .inSelectInTable
    else modeOfSelect os

/-- The mode that an element asks for, if it does; `around` are the elements around it. -/
def modeOf? (b : Builder) (o : Open) (around : List Open) : Option Mode :=
  let last := around.isEmpty
  if o.ns != htmlNs then none
  else
    match o.name with
    | "select" => some (modeOfSelect around)
    | "td" | "th" => if last then none else some .inCell
    | "tr" => some .inRow
    | "tbody" | "thead" | "tfoot" => some .inTableBody
    | "caption" => some .inCaption
    | "colgroup" => some .inColumnGroup
    | "table" => some .inTable
    | "template" => b.templateModes.head?
    | "head" => if last then none else some .inHead
    | "body" => some .inBody
    | "frameset" => some .inFrameset
    | "html" => some (if b.head?.isNone then .beforeHead else .afterHead)
    | _ => none

/-- The mode that a stack asks for: that of the innermost element that does. -/
def modeOfStack (b : Builder) : List Open → Mode
  | [] => .inBody
  | [o] => (b.modeOf? (b.context?.getD o) []).getD .inBody
  | o :: os => (b.modeOf? o os).getD (b.modeOfStack os)

end Builder

/-! ## Edits -/

/-- Passes over to another mode. -/
def goTo (m : Mode) : Build Unit := modify ({ · with mode := m })

/-- Passes over to the mode that the stack asks for. -/
def goByStack : Build Unit := modify fun b => { b with mode := b.modeOfStack b.opened }

/-- What follows can no longer be a set of frames instead of a body. -/
def forbidFrameset : Build Unit := modify ({ · with framesetOk := false })

/-- Adds a branch that stands nowhere yet. -/
def create (i : Item) : Build Nat :=
  modifyGet fun b =>
    let (id, draft) := b.draft.create i
    (id, { b with draft })

/-- Adds an element that stands nowhere yet. -/
def createElement (ns name : String) (attributes : List ReadAttribute) : Build Open := do
  let id ← create (.element name none ns attributes)
  let holdsHtml := ns == mathNs && name == "annotation-xml" && attributes.any fun a =>
    a.ns.isNone && a.localName == "encoding" &&
      ["text/html", "application/xhtml+xml"].contains a.value.toLower
  pure ⟨id, name, ns, holdsHtml⟩

/-- Adds the HTML element of a tag, which stands nowhere yet. -/
def createOf (t : Tag) : Build Open :=
  createElement htmlNs t.name (t.attributes.map fun a => .plain a.1 a.2)

/-- Puts a branch at a spot. -/
def putAt (id : Nat) (spot : Spot) : Build Unit :=
  modify fun b => { b with draft := b.draft.put id spot }

/-- Opens an element. -/
def push (o : Open) : Build Unit := modify fun b => { b with opened := o :: b.opened }

/-- Closes the innermost element. -/
def leave : Build Unit := modify fun b => { b with opened := b.opened.drop 1 }

/-- Adds an element and opens it. -/
def enterElement (ns name : String) (attributes : List ReadAttribute) : Build Open := do
  let o ← createElement ns name attributes
  putAt o.id (← get).spot
  push o
  pure o

/-- Adds the HTML element of a tag and opens it. -/
def enter (t : Tag) : Build Open :=
  enterElement htmlNs t.name (t.attributes.map fun a => .plain a.1 a.2)

/-- Adds the HTML element of a tag and opens it. -/
def start (t : Tag) : Build Unit := discard (enter t)

/-- Adds an HTML element that the text leaves out, and opens it. -/
def supply (name : String) : Build Unit := start ⟨name, [], false⟩

/-- Adds an element that is closed at once. -/
def addEmpty (t : Tag) : Build Unit := do
  start t
  leave

/-- Writes a character. -/
def write (c : Char) : Build Unit := modify fun b => { b with draft := b.draft.write c b.spot }

/-- Adds a comment below a branch. -/
def addCommentTo (id : Nat) (text : String) : Build Unit := do
  putAt (← create (.comment text)) (.inside id)

/-- Adds a comment. -/
def addComment (text : String) : Build Unit := do
  putAt (← create (.comment text)) (← get).spot

/-- Closes elements while they pass the test. -/
def leaveWhile (p : Open → Bool) : Build Unit :=
  modify fun b => { b with opened := b.opened.dropWhile p }

/-- Closes the innermost element with one of the names, and all elements in it. -/
def leaveThrough (names : List String) : Build Unit := do
  leaveWhile (!·.isHtml names)
  leave

/-- Closes the elements in the innermost element with one of the names. -/
def leaveTo (names : List String) : Build Unit := leaveWhile (!·.isHtml names)

/-- The elements whose end may be left out. -/
def optionalEnds : List String :=
  ["dd", "dt", "li", "optgroup", "option", "p", "rb", "rp", "rt", "rtc"]

/-- The elements whose end may be left out in a template. -/
def optionalEndsInTemplate : List String :=
  optionalEnds ++ ["caption", "colgroup", "tbody", "td", "tfoot", "th", "thead", "tr"]

/-- Closes elements whose end may be left out, up to one with the given name. -/
def impliedEnds (except : String) : Build Unit :=
  leaveWhile fun o => o.isHtml optionalEnds && o.name != except

/-- Closes an element whose end tag is there, or implied. -/
def close (name : String) : Build Unit := do
  impliedEnds name
  leaveThrough [name]

/-- Closes a paragraph that is open. -/
def closeParagraph : Build Unit := do
  if (← get).reaches Builder.hidesParagraphs ["p"] then close "p"

/-- Gives the element at the bottom of the stack the attributes that it does not have, unless a template
is open. -/
def completeHtml (t : Tag) : Build Unit :=
  modify fun b =>
    match b.opened.getLast? with
    | some html =>
      if b.hasOpen ["template"] then b
      else { b with draft := b.draft.complete html.id t.attributes }
    | none => b

/-- How a token goes on: it is done with, or it is read again in the mode that it led to. -/
inductive Outcome where
  | done | again
deriving DecidableEq

/-- Reads a token again in another mode. -/
def againIn (m : Mode) : Build Outcome := do
  goTo m
  pure .again

end DomHost.Markup
