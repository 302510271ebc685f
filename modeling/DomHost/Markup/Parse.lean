import DomHost.Markup.Rules.Foreign

/-!
# Reading markup

A text is read token by token. A whole document has an element `html` with a `head` and a `body`,
written or not; a fragment is read as if it stood in a given element.

* `take`: one token;
* `parseDocument`: the tree of a document;
* `parseFragment`: the trees of a fragment.
-/

namespace DomHost.Markup

/-- Reads a token until it is done with, in at most `n` steps. -/
def finishToken (t : Token) : (n : Nat) → Build Unit
  | 0 => pure ()
  | n + 1 => do
    match ← step t with
    | .done => pure ()
    | .again => finishToken t n

/-- Reads a document type, which counts only in front of everything else. -/
def takeType (d : DocumentType) : Build Unit := do
  if (← get).mode = .initial then
    putAt (← create (.documentType d.name)) (.inside 0)
    modify fun b => { b with loose := d.isLoose, mode := .beforeHtml }

/-- Reads a token. A token that is read again has closed an element or come closer to the mode of its
kind, so that a few steps for each open element are enough. -/
def take (t : Token) : Build Unit := do
  let b ← get
  set { b with dropLineFeed := false }
  match t with
  | .slip => pure ()
  | .documentType d => takeType d
  | t => if b.dropLineFeed && t = .char '\n' then pure () else finishToken t (8 * b.opened.length + 40)

/-- Reads a text of at most `n` characters to its end. -/
def readText : (n : Nat) → List Char → Build Unit
  | 0, _ => take .finished
  | n + 1, cs => do
    let b ← get
    match Token.next? b.inForeign b.holds cs with
    | some (tokens, rest) =>
      tokens.forM take
      readText n rest
    | none => take .finished

/-- The draft that a text makes. -/
def Builder.read (b : Builder) (s : String) : Draft :=
  let cs := incoming s
  ((readText cs.length cs).run b).2.draft

/-- The tree of a document. -/
def parseDocument (s : String) : Forest Item :=
  let b : Builder := { mode := .initial }
  (b.read s).below 0

/-- What the text of a fragment is read as, inside an element. No end tag ends it. -/
def contentIn (name ns : String) : Content :=
  if ns ≠ htmlNs then .markup
  else if ["title", "textarea"].contains name then .text true none
  else if ["iframe", "noembed", "noframes", "plaintext", "script", "style", "xmp"].contains name then
    .text false none
  else .markup

/-- A builder for a fragment inside an element, and the element `html` that collects it. -/
def Builder.ofContext (name ns : String) : Builder × Open :=
  let modes : List Mode := if ns = htmlNs ∧ name = "template" then [.inTemplate] else []
  let b : Builder :=
    { mode := .inBody, context? := some ⟨0, name, ns, false⟩, templateModes := modes
      holds := contentIn name ns }
  let (html, b) := (createOf ⟨"html", [], false⟩).run b
  let b := { b with draft := b.draft.put html.id (.inside 0), opened := [html] }
  ({ b with mode := b.modeOfStack b.opened }, html)

/-- The trees of a fragment inside an element with a name and namespace. -/
def parseFragment (name ns s : String) : Forest Item :=
  let (b, html) := Builder.ofContext name ns
  (b.read s).below html.id

end DomHost.Markup
