import DomHost.Markup.Rules.Body

/-!
# In a selection

A selection holds options and groups of them. Other tags mean nothing in it, but their text stays.

* `leaveSelect`: closes the selection;
* `inSelect`, `inSelectInTable`: the modes.
-/

namespace DomHost.Markup

/-- Closes the innermost selection. -/
def leaveSelect (outcome : Outcome) : Build Outcome := do
  leaveThrough ["select"]
  goByStack
  pure outcome

/-- Closes the innermost selection, where there is one. -/
def leaveSelectIfOpen (outcome : Outcome) : Build Outcome := do
  if (← get).reaches Builder.hidesSelects ["select"] then leaveSelect outcome else pure .done

/-- Closes the innermost element if it has the name. -/
def leaveIf (name : String) : Build Unit := do
  if (← get).currentIs [name] then leave

/-- The end tag of a group of options. -/
def endOptionGroup : Build Unit := do
  match (← get).opened with
  | option :: group :: _ => if option.isHtml ["option"] && group.isHtml ["optgroup"] then leave
  | _ => pure ()
  leaveIf "optgroup"

/-- The mode in a selection. -/
def inSelect : Token → Build Outcome
  | .char c => do
    write c
    pure .done
  | .comment s => do
    addComment s
    pure .done
  | .startTag t => do
    if t.name = "html" then
      completeHtml t
      pure .done
    else if t.name = "option" then
      leaveIf "option"
      start t
      pure .done
    else if ["optgroup", "hr"].contains t.name then
      leaveIf "option"
      leaveIf "optgroup"
      start t
      leaveIf "hr"
      pure .done
    else if t.name = "select" then leaveSelectIfOpen .done
    else if ["input", "keygen", "textarea"].contains t.name then leaveSelectIfOpen .again
    else if ["script", "template"].contains t.name then startInHead t
    else pure .done
  | .endTag name => do
    if name = "optgroup" then
      endOptionGroup
      pure .done
    else if name = "option" then
      leaveIf "option"
      pure .done
    else if name = "select" then leaveSelectIfOpen .done
    else if name = "template" then
      endTemplate
      pure .done
    else pure .done
  | .finished => finishTemplates
  | .null | .slip | .documentType _ => pure .done

/-- The mode in a selection inside a table, the parts of which close the selection. -/
def inSelectInTable : Token → Build Outcome
  | .startTag t =>
    if partTags.contains t.name then leaveSelect .again else inSelect (.startTag t)
  | .endTag name => do
    if partTags.contains name then
      if (← get).reaches Builder.hidesTables [name] then leaveSelect .again else pure .done
    else inSelect (.endTag name)
  | t => inSelect t
where
  /-- The tags of tables. -/
  partTags : List String :=
    ["caption", "table", "tbody", "tfoot", "thead", "tr", "td", "th"]

end DomHost.Markup
