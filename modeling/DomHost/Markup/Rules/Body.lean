import DomHost.Markup.Rules.Head

/-!
# In the body of a document

* `writeInBody`: a character;
* `startInBody`, `endInBody`: tags;
* `finishTemplates`: the end of the text while templates are open;
* `inBody`: the mode.
-/

namespace DomHost.Markup

/-! ## Kinds of tags -/

/-- The headings. -/
def headings : List String := ["h1", "h2", "h3", "h4", "h5", "h6"]

/-- The start tags without rules of their own but that they close a paragraph. -/
def blockTags : List String :=
  ["address", "article", "aside", "blockquote", "center", "details", "dialog", "dir", "div", "dl",
    "fieldset", "figcaption", "figure", "footer", "header", "hgroup", "main", "menu", "nav", "ol", "p",
    "search", "section", "summary", "ul"]

/-- The end tags that close what is open in their element. -/
def blockEndTags : List String :=
  ["address", "article", "aside", "blockquote", "button", "center", "details", "dialog", "dir", "div",
    "dl", "fieldset", "figcaption", "figure", "footer", "header", "hgroup", "listing", "main", "menu",
    "nav", "ol", "pre", "search", "section", "summary", "ul"]

/-- The formatting elements but links and texts without line breaks. -/
def formattingTags : List String :=
  ["b", "big", "code", "em", "font", "i", "s", "small", "strike", "strong", "tt", "u"]

/-- The elements around which a barrier is raised. -/
def barrierTags : List String := ["applet", "marquee", "object"]

/-- The elements that are closed at once and stand in a line of text. -/
def emptyTags : List String := ["area", "br", "embed", "img", "input", "keygen", "wbr"]

/-- The start tags that mean nothing in a body. -/
def strayTags : List String :=
  ["caption", "col", "colgroup", "frame", "head", "tbody", "td", "tfoot", "th", "thead", "tr"]

/-- Is this a control that nobody sees? -/
def Tag.isHidden (t : Tag) : Bool :=
  t.attributes.any fun a => a.1 == "type" && a.2.toLower == "hidden"

/-! ## Start tags -/

/-- Closes the open list item that a new one follows; `names` are those of such items. -/
def closeItem (names : List String) : Build Unit := do
  let isBarrier (o : Open) : Bool := o.isHtml specialTags && !o.isHtml ["address", "div", "p"]
  let b ← get
  match b.opened.find? fun o => o.isHtml names || isBarrier o with
  | some o => if o.isHtml names then close o.name
  | none => pure ()

/-- Puts a set of frames in the place of the body. -/
def startFrameset (t : Tag) : Build Unit := do
  let b ← get
  match b.opened.reverse with
  | html :: body :: _ =>
    if b.framesetOk && body.isHtml ["body"] then
      set { b with draft := b.draft.detach body.id, opened := [html] }
      start t
      goTo .inFrameset
  | _ => pure ()

/-- Gives the body the attributes that it does not have. -/
def completeBody (t : Tag) : Build Unit :=
  modify fun b =>
    match b.opened.reverse with
    | _ :: body :: _ =>
      if body.isHtml ["body"] && !b.hasOpen ["template"] then
        { b with draft := b.draft.complete body.id t.attributes, framesetOk := false }
      else b
    | _ => b

/-- Opens a form, unless one is open already. -/
def startForm (t : Tag) : Build Unit := do
  let b ← get
  let inTemplate := b.hasOpen ["template"]
  if b.form?.isNone || inTemplate then
    closeParagraph
    let o ← enter t
    if !inTemplate then modify ({ · with form? := some o })

/-- Opens a selection. -/
def startSelect (t : Tag) : Build Unit := do
  reopenFormatting
  start t
  forbidFrameset
  let tableModes : List Mode := [.inTable, .inCaption, .inTableBody, .inRow, .inCell]
  modify fun b =>
    { b with mode := if tableModes.contains b.mode then .inSelectInTable else .inSelect }

/-- Adds an element outside HTML, and opens it unless its tag closes it. -/
def startForeign (ns name : String) (t : Tag) : Build Unit := do
  discard (enterElement ns name (t.attributes.map fun a => foreignAttribute ns a.1 a.2))
  if t.selfClosing then leave

/-- Closes a paragraph and opens an element. -/
def startBlock (t : Tag) : Build Unit := do
  closeParagraph
  start t

/-- Opens an element in a line of text. -/
def startInLine (t : Tag) : Build Unit := do
  reopenFormatting
  start t

/-- The start tags that leave nothing to read again and hold markup. -/
def startElement (t : Tag) : Build Unit := do
  let b ← get
  let name := t.name
  if name = "html" then completeHtml t
  else if name = "body" then completeBody t
  else if name = "frameset" then startFrameset t
  else if blockTags.contains name then startBlock t
  else if headings.contains name then
    closeParagraph
    if (← get).currentIs headings then leave
    start t
  else if ["pre", "listing"].contains name then
    startBlock t
    modify ({ · with dropLineFeed := true, framesetOk := false })
  else if name = "form" then startForm t
  else if ["li", "dd", "dt"].contains name then
    forbidFrameset
    closeItem (if name = "li" then ["li"] else ["dd", "dt"])
    startBlock t
  else if name = "plaintext" then
    startBlock t
    modify ({ · with holds := .text false none })
  else if name = "button" then
    if b.reaches Builder.hides ["button"] then
      impliedEnds ""
      leaveThrough ["button"]
    startInLine t
    forbidFrameset
  else if name = "a" then
    endLink
    reopenFormatting
    startFormatting t
  else if formattingTags.contains name then
    reopenFormatting
    startFormatting t
  else if name = "nobr" then
    reopenFormatting
    if (← get).reaches Builder.hides ["nobr"] then
      endFormatting "nobr"
      reopenFormatting
    startFormatting t
  else if barrierTags.contains name then
    startInLine t
    raiseBarrier
    forbidFrameset
  else if name = "table" then
    if !b.loose then closeParagraph
    start t
    forbidFrameset
    goTo .inTable
  else if emptyTags.contains name then
    reopenFormatting
    addEmpty t
    if !(name = "input" && t.isHidden) then forbidFrameset
  else if ["param", "source", "track"].contains name then addEmpty t
  else if name = "hr" then
    closeParagraph
    addEmpty t
    forbidFrameset
  else if name = "select" then startSelect t
  else if ["optgroup", "option"].contains name then
    if b.currentIs ["option"] then leave
    startInLine t
  else if ["rb", "rtc", "rp", "rt"].contains name then
    if b.reaches Builder.hides ["ruby"] then
      impliedEnds (if ["rp", "rt"].contains name then "rtc" else "")
    start t
  else if name = "math" then startForeign mathNs name t
  else if name = "svg" then startForeign svgNs name t
  else if strayTags.contains name then pure ()
  else startInLine t

/-- A start tag in a body. -/
def startInBody (t : Tag) : Build Outcome := do
  let name := t.name
  if headTags.contains name then startInHead t
  else if name = "textarea" then
    modify ({ · with dropLineFeed := true, framesetOk := false })
    startPlainText t
  else if name = "xmp" then
    closeParagraph
    reopenFormatting
    forbidFrameset
    startRawText t
  else if name = "iframe" then
    forbidFrameset
    startRawText t
  else if ["noembed", "noscript"].contains name then startRawText t
  else
    startElement (if name = "image" then { t with name := "img" } else t)
    pure .done

/-! ## End tags -/

/-- Closes the open form. -/
def endForm : Build Unit := do
  let b ← get
  if b.hasOpen ["template"] then
    if b.reaches Builder.hides ["form"] then
      impliedEnds ""
      leaveThrough ["form"]
  else
    set { b with form? := none }
    match b.form? with
    | some form =>
      if Builder.reachesIn Builder.hides (·.id == form.id) b.opened then
        impliedEnds ""
        removeOpen form
    | none => pure ()

/-- The end tags that leave nothing to read again. -/
def endElement (name : String) : Build Unit := do
  let b ← get
  if name = "template" then endTemplate
  else if name = "body" then
    if b.reaches Builder.hides ["body"] then goTo .afterBody
  else if blockEndTags.contains name then
    if b.reaches Builder.hides [name] then close name
  else if name = "form" then endForm
  else if name = "p" then
    if !b.reaches Builder.hidesParagraphs ["p"] then supply "p"
    close "p"
  else if name = "li" then
    if b.reaches Builder.hidesItems ["li"] then close "li"
  else if ["dd", "dt"].contains name then
    if b.reaches Builder.hides [name] then close name
  else if headings.contains name then
    if b.reaches Builder.hides headings then
      impliedEnds ""
      leaveThrough headings
  else if ["a", "nobr"].contains name || formattingTags.contains name then endFormatting name
  else if barrierTags.contains name then
    if b.reaches Builder.hides [name] then
      close name
      dropBarrier
  else if name = "br" then startElement ⟨"br", [], false⟩
  else endOther name

/-- An end tag in a body. -/
def endInBody (name : String) : Build Outcome := do
  if name = "html" then
    if (← get).reaches Builder.hides ["body"] then againIn .afterBody else pure .done
  else
    endElement name
    pure .done

/-! ## The mode -/

/-- A character in a body. -/
def writeInBody (c : Char) : Build Unit := do
  reopenFormatting
  if !isSpace c then forbidFrameset
  write c

/-- The end of the text closes the templates that are open, one by one. -/
def finishTemplates : Build Outcome := do
  let b ← get
  if b.templateModes.isEmpty || !b.hasOpen ["template"] then pure .done
  else
    leaveTemplate
    pure .again

/-- The mode in a body. -/
def inBody : Token → Build Outcome
  | .char c => do
    writeInBody c
    pure .done
  | .comment s => do
    addComment s
    pure .done
  | .startTag t => startInBody t
  | .endTag name => endInBody name
  | .finished => finishTemplates
  | .null | .slip | .documentType _ => pure .done

end DomHost.Markup
