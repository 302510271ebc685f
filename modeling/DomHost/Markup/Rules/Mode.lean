import DomHost.Markup.Rules.Behind
import DomHost.Markup.Rules.Select
import DomHost.Markup.Rules.Table

/-!
# The rule of every mode

* `inText`: texts that are not markup;
* `inTemplate`: a template takes the mode that its first tag asks for;
* `rule`: what a token does in a mode.
-/

namespace DomHost.Markup

/-- The mode in a text that is not markup. -/
def inText : Token → Build Outcome
  | .char c => do
    write c
    pure .done
  | .endTag _ => do
    ended
    pure .done
  | .finished => do
    ended
    pure .again
  | _ => pure .done
where
  /-- The text is over. -/
  ended : Build Unit := do
    leave
    modify fun b => { b with mode := b.back, holds := .markup }

/-- Gives the innermost template another mode. -/
def turnTemplate (m : Mode) : Build Outcome := do
  modify fun b => { b with templateModes := m :: b.templateModes.drop 1 }
  againIn m

/-- The mode in a template. -/
def inTemplate : Token → Build Outcome
  | .startTag t =>
    if headTags.contains t.name then startInHead t
    else if ["caption", "colgroup", "tbody", "tfoot", "thead"].contains t.name then
      turnTemplate .inTable
    else if t.name = "col" then turnTemplate .inColumnGroup
    else if t.name = "tr" then turnTemplate .inTableBody
    else if cells.contains t.name then turnTemplate .inRow
    else turnTemplate .inBody
  | .endTag name => do
    if name = "template" then endTemplate
    pure .done
  | t => inBody t

/-! ## All modes -/

/-- What a token does in a mode. -/
def rule : Mode → Token → Build Outcome
  | .initial => inInitial
  | .beforeHtml => inBeforeHtml
  | .beforeHead => inBeforeHead
  | .inHead => inHead
  | .afterHead => inAfterHead
  | .inBody => inBody
  | .text => inText
  | .inTable => inTable
  | .inTableText => inTableText
  | .inCaption => inCaption
  | .inColumnGroup => inColumnGroup
  | .inTableBody => inTableBody
  | .inRow => inRow
  | .inCell => inCell
  | .inSelect => inSelect
  | .inSelectInTable => inSelectInTable
  | .inTemplate => inTemplate
  | .afterBody => inAfterBody
  | .inFrameset => inFrameset
  | .afterFrameset => inAfterFrameset
  | .afterAfterBody => inAfterAfterBody
  | .afterAfterFrameset => inAfterAfterFrameset

end DomHost.Markup
