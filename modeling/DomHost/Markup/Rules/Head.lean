import DomHost.Markup.Formatting

/-!
# Up to the body of a document

A document starts with its type, its element `html` and its head; what the text leaves out is supplied.
Without a document type, the looser rules hold.

* `startText`, `startInHead`: the elements of a head, many of which hold text that is not markup;
* `startTemplate`, `endTemplate`: templates;
* `inInitial`, `inBeforeHtml`, `inBeforeHead`, `inHead`, `inAfterHead`: the modes.
-/

namespace DomHost.Markup

/-- Opens an element whose text is not markup. -/
def startText (t : Tag) (holds : Content) : Build Outcome := do
  start t
  modify fun b => { b with back := b.mode, mode := .text, holds }
  pure .done

/-- Opens an element whose text has no references. -/
def startRawText (t : Tag) : Build Outcome := startText t (.text false (some t.name))

/-- Opens an element whose text has references. -/
def startPlainText (t : Tag) : Build Outcome := startText t (.text true (some t.name))

/-! ## Templates -/

/-- Opens a template. -/
def startTemplate (t : Tag) : Build Unit := do
  start t
  raiseBarrier
  forbidFrameset
  modify fun b => { b with mode := .inTemplate, templateModes := .inTemplate :: b.templateModes }

/-- Closes the innermost template and all elements in it. -/
def leaveTemplate : Build Unit := do
  leaveThrough ["template"]
  dropBarrier
  modify fun b => { b with templateModes := b.templateModes.drop 1 }
  goByStack

/-- The end tag of a template. -/
def endTemplate : Build Unit := do
  if (← get).hasOpen ["template"] then
    leaveWhile (·.isHtml optionalEndsInTemplate)
    leaveTemplate

/-! ## Elements of a head -/

/-- The elements of a head that are closed at once. -/
def emptyHeadTags : List String := ["base", "basefont", "bgsound", "link", "meta"]

/-- The elements of a head. -/
def headTags : List String :=
  emptyHeadTags ++ ["noframes", "script", "style", "template", "title"]

/-- Opens an element of a head. -/
def startInHead (t : Tag) : Build Outcome := do
  if emptyHeadTags.contains t.name then
    addEmpty t
    pure .done
  else if t.name = "template" then
    startTemplate t
    pure .done
  else if t.name = "title" then startPlainText t
  else if t.name = "script" then startText t .script
  else startRawText t

/-! ## Modes -/

/-- The end tags that end what comes in front of a body. -/
def endsFront (name : String) : Bool := ["body", "html", "br"].contains name

/-- The mode in front of the document type. -/
def inInitial : Token → Build Outcome
  | .char c => if isSpace c then pure .done else untyped
  | .comment s => do
    addCommentTo 0 s
    pure .done
  | _ => untyped
where
  /-- The document has no type. -/
  untyped : Build Outcome := do
    modify ({ · with loose := true })
    againIn .beforeHtml

/-- Adds the element `html` of a document. -/
def startHtml (t : Tag) : Build Unit := do
  let o ← createOf t
  putAt o.id (.inside 0)
  push o
  goTo .beforeHead

/-- The mode in front of the element `html`. -/
def inBeforeHtml : Token → Build Outcome
  | .char c => if isSpace c then pure .done else supplied
  | .comment s => do
    addCommentTo 0 s
    pure .done
  | .startTag t =>
    if t.name = "html" then do
      startHtml t
      pure .done
    else supplied
  | .endTag name => if name = "head" || endsFront name then supplied else pure .done
  | _ => supplied
where
  /-- The element is left out. -/
  supplied : Build Outcome := do
    startHtml ⟨"html", [], false⟩
    pure .again

/-- Opens the head. -/
def startHead (t : Tag) : Build Unit := do
  let o ← enter t
  modify fun b => { b with head? := some o, mode := .inHead }

/-- The mode in front of the head. -/
def inBeforeHead : Token → Build Outcome
  | .char c => if isSpace c then pure .done else supplied
  | .comment s => do
    addComment s
    pure .done
  | .startTag t =>
    if t.name = "html" then do
      completeHtml t
      pure .done
    else if t.name = "head" then do
      startHead t
      pure .done
    else supplied
  | .endTag name => if name = "head" || endsFront name then supplied else pure .done
  | _ => supplied
where
  /-- The head is left out. -/
  supplied : Build Outcome := do
    startHead ⟨"head", [], false⟩
    pure .again

/-- The mode in a head. -/
def inHead : Token → Build Outcome
  | .char c =>
    if isSpace c then do
      write c
      pure .done
    else ended
  | .comment s => do
    addComment s
    pure .done
  | .startTag t =>
    if t.name = "html" then do
      completeHtml t
      pure .done
    else if headTags.contains t.name || t.name = "noscript" then startInHead t
    else if t.name = "head" then pure .done
    else ended
  | .endTag name =>
    if name = "head" then do
      leave
      goTo .afterHead
      pure .done
    else if name = "template" then do
      endTemplate
      pure .done
    else if endsFront name then ended
    else pure .done
  | _ => ended
where
  /-- The head is over. -/
  ended : Build Outcome := do
    leave
    againIn .afterHead

/-- Opens an element of the head behind its end. -/
def startInClosedHead (t : Tag) : Build Outcome := do
  match (← get).head? with
  | some head =>
    push head
    let outcome ← startInHead t
    removeOpen head
    pure outcome
  | none => startInHead t

/-- The mode between head and body. -/
def inAfterHead : Token → Build Outcome
  | .char c =>
    if isSpace c then do
      write c
      pure .done
    else supplied
  | .comment s => do
    addComment s
    pure .done
  | .startTag t =>
    if t.name = "html" then do
      completeHtml t
      pure .done
    else if t.name = "body" then do
      start t
      forbidFrameset
      goTo .inBody
      pure .done
    else if t.name = "frameset" then do
      start t
      goTo .inFrameset
      pure .done
    else if headTags.contains t.name then startInClosedHead t
    else if t.name = "head" then pure .done
    else supplied
  | .endTag name =>
    if name = "template" then do
      endTemplate
      pure .done
    else if endsFront name then supplied
    else pure .done
  | _ => supplied
where
  /-- The start tag of the body is left out. -/
  supplied : Build Outcome := do
    supply "body"
    againIn .inBody

end DomHost.Markup
