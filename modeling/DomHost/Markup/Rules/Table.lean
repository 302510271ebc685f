import DomHost.Markup.Rules.Body

/-!
# In a table

The parts of a table open each other where their tags are left out, and close what is open in the way.
What is no part of a table goes in front of it.

* `foster`: what goes in front of a table;
* `flushTableText`: characters between the parts of a table;
* `inTable`, `inCaption`, `inColumnGroup`, `inTableBody`, `inRow`, `inCell`: the modes.
-/

namespace DomHost.Markup

/-- The parts of a table in rows. -/
def tableBodies : List String := ["tbody", "tfoot", "thead"]

/-- The cells. -/
def cells : List String := ["td", "th"]

/-- The parts of a table other than cells and rows. -/
def outerParts : List String := ["caption", "col", "colgroup", "tbody", "tfoot", "thead"]

/-- Reads a token by the rules of a body, with what it adds to the table in front of it. -/
def foster (t : Token) : Build Outcome := do
  modify ({ · with fostering := true })
  let outcome ← inBody t
  modify ({ · with fostering := false })
  pure outcome

/-- Is a part of this table open? -/
def tableHas (names : List String) : Build Bool := do
  pure ((← get).reaches Builder.hidesTables names)

/-! ## Characters -/

/-- Writes the characters kept so far: white space into the table, other text in front of it. -/
def flushTableText : Build Unit := do
  let text := (← get).tableText.reverse
  modify ({ · with tableText := [] })
  if text.all isSpace then text.forM write
  else text.forM fun c => discard (foster (.char c))

/-- The mode for characters between the parts of a table, which are kept until something else comes. -/
def inTableText : Token → Build Outcome
  | .char c => do
    modify fun b => { b with tableText := c :: b.tableText }
    pure .done
  | .null => pure .done
  | _ => do
    flushTableText
    againIn (← get).back

/-! ## Tables -/

/-- Opens a part of a table in the innermost table. -/
def startPart (t : Tag) (m : Mode) : Build Outcome := do
  leaveTo ["table", "template", "html"]
  start t
  goTo m
  pure .done

/-- Opens a part of a table that the text leaves out. -/
def supplyPart (name : String) (m : Mode) : Build Outcome := do
  discard (startPart ⟨name, [], false⟩ m)
  pure .again

/-- A form in a table has nothing in it. -/
def addFormToTable (t : Tag) : Build Unit := do
  let b ← get
  if b.form?.isNone && !b.hasOpen ["template"] then
    let o ← enter t
    leave
    modify ({ · with form? := some o })

/-- A start tag in a table. -/
def startInTable (t : Tag) : Build Outcome := do
  let name := t.name
  if name = "caption" then
    raiseBarrier
    startPart t .inCaption
  else if name = "colgroup" then startPart t .inColumnGroup
  else if name = "col" then supplyPart "colgroup" .inColumnGroup
  else if tableBodies.contains name then startPart t .inTableBody
  else if name = "tr" || cells.contains name then supplyPart "tbody" .inTableBody
  else if name = "table" then
    if ← tableHas ["table"] then
      leaveThrough ["table"]
      goByStack
      pure .again
    else pure .done
  else if ["style", "script", "template"].contains name then startInHead t
  else if name = "input" && t.isHidden then
    addEmpty t
    pure .done
  else if name = "form" then
    addFormToTable t
    pure .done
  else foster (.startTag t)

/-- An end tag in a table. -/
def endInTable (name : String) : Build Outcome := do
  if name = "table" then
    if ← tableHas ["table"] then
      leaveThrough ["table"]
      goByStack
    pure .done
  else if name = "template" then
    endTemplate
    pure .done
  else if ["body", "html", "tr"].contains name || outerParts.contains name || cells.contains name then
    pure .done
  else foster (.endTag name)

/-- A character in a table, or one with number zero. -/
def startTableText (t : Token) : Build Outcome := do
  let b ← get
  if b.currentIs Builder.tableParts then
    modify ({ · with back := b.mode })
    againIn .inTableText
  else foster t

/-- The mode in a table. -/
def inTable : Token → Build Outcome
  | .char c => startTableText (.char c)
  | .null => startTableText .null
  | .comment s => do
    addComment s
    pure .done
  | .startTag t => startInTable t
  | .endTag name => endInTable name
  | .finished => finishTemplates
  | .slip | .documentType _ => pure .done

/-! ## Captions and columns -/

/-- Closes the caption. -/
def leaveCaption (outcome : Outcome) : Build Outcome := do
  if ← tableHas ["caption"] then
    close "caption"
    dropBarrier
    goTo .inTable
    pure outcome
  else pure .done

/-- The mode in a caption. -/
def inCaption : Token → Build Outcome
  | .startTag t =>
    if outerParts.contains t.name || cells.contains t.name || t.name = "tr" then leaveCaption .again
    else startInBody t
  | .endTag name =>
    if name = "caption" then leaveCaption .done
    else if name = "table" then leaveCaption .again
    else if ["body", "html", "tr"].contains name || outerParts.contains name || cells.contains name then
      pure .done
    else endInBody name
  | t => inBody t

/-- Closes the column group, if it is the innermost element. -/
def leaveColumnGroup (outcome : Outcome) : Build Outcome := do
  if (← get).currentIs ["colgroup"] then
    leave
    goTo .inTable
    pure outcome
  else pure .done

/-- The mode in a column group. -/
def inColumnGroup : Token → Build Outcome
  | .char c =>
    if isSpace c then do
      write c
      pure .done
    else leaveColumnGroup .again
  | .comment s => do
    addComment s
    pure .done
  | .startTag t =>
    if t.name = "html" then do
      completeHtml t
      pure .done
    else if t.name = "col" then do
      addEmpty t
      pure .done
    else if t.name = "template" then startInHead t
    else leaveColumnGroup .again
  | .endTag name =>
    if name = "colgroup" then leaveColumnGroup .done
    else if name = "col" then pure .done
    else if name = "template" then do
      endTemplate
      pure .done
    else leaveColumnGroup .again
  | .finished => finishTemplates
  | _ => leaveColumnGroup .again

/-! ## Rows -/

/-- Closes what is open in the innermost table body, and the table body. -/
def leaveTableBody (outcome : Outcome) : Build Outcome := do
  leaveTo ["tbody", "tfoot", "thead", "template", "html"]
  leave
  goTo .inTable
  pure outcome

/-- The mode in a table body. -/
def inTableBody : Token → Build Outcome
  | .startTag t => do
    if t.name = "tr" || cells.contains t.name then
      leaveTo ["tbody", "tfoot", "thead", "template", "html"]
      goTo .inRow
      if t.name = "tr" then
        start t
        pure .done
      else
        supply "tr"
        pure .again
    else if outerParts.contains t.name then
      if ← tableHas ["table", "tbody", "tfoot"] then leaveTableBody .again else pure .done
    else startInTable t
  | .endTag name => do
    if tableBodies.contains name then
      if ← tableHas [name] then leaveTableBody .done else pure .done
    else if name = "table" then
      if ← tableHas ["table", "tbody", "tfoot"] then leaveTableBody .again else pure .done
    else endInTable name
  | t => inTable t

/-- Closes what is open in the innermost row, and the row, where it is a part of this table. -/
def leaveRow (outcome : Outcome) : Build Outcome := do
  if ← tableHas ["tr"] then
    leaveTo ["tr", "template", "html"]
    leave
    goTo .inTableBody
    pure outcome
  else pure .done

/-- The mode in a row. -/
def inRow : Token → Build Outcome
  | .startTag t => do
    if cells.contains t.name then
      leaveTo ["tr", "template", "html"]
      start t
      raiseBarrier
      goTo .inCell
      pure .done
    else if t.name = "tr" || outerParts.contains t.name then leaveRow .again
    else startInTable t
  | .endTag name => do
    if name = "tr" then leaveRow .done
    else if name = "table" then leaveRow .again
    else if tableBodies.contains name then
      if ← tableHas [name] then leaveRow .again else pure .done
    else endInTable name
  | t => inTable t

/-- Closes the cell. -/
def leaveCell : Build Outcome := do
  impliedEnds ""
  leaveThrough cells
  dropBarrier
  againIn .inRow

/-- The mode in a cell. -/
def inCell : Token → Build Outcome
  | .startTag t => do
    if t.name = "tr" || outerParts.contains t.name || cells.contains t.name then
      if ← tableHas cells then leaveCell else pure .done
    else startInBody t
  | .endTag name => do
    if cells.contains name then
      if ← tableHas [name] then
        close name
        dropBarrier
        goTo .inRow
      pure .done
    else if ["body", "caption", "col", "colgroup", "html"].contains name then pure .done
    else if name = "table" || name = "tr" || tableBodies.contains name then
      if ← tableHas [name] then leaveCell else pure .done
    else endInBody name
  | t => inBody t

end DomHost.Markup
