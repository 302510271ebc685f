import DomHost.Markup.Rules.Mode

/-!
# Inside SVG and MathML

Inside SVG and MathML every element is kept as it is. Some of their elements hold HTML again, and some
tags of HTML end what is open outside it.

* `Builder.isForeign`: is a token read by the rules for SVG and MathML?
* `inForeign`: those rules;
* `step`: what a token does by the rules that it is read by.
-/

namespace DomHost.Markup

/-- Is a token read by the rules of HTML although the innermost element is outside HTML? -/
def Builder.allowsHtml (b : Builder) (t : Token) : Bool :=
  let o := b.surrounding
  match t with
  | .startTag tag =>
    (o.isFormulaText && !(["mglyph", "malignmark"].contains tag.name)) || o.isDrawingText ||
      o.holdsHtml || (o.ns == mathNs && o.name == "annotation-xml" && tag.name == "svg")
  | .char _ | .null => o.isFormulaText || o.isDrawingText || o.holdsHtml
  | _ => false

/-- Is a token read by the rules for SVG and MathML? -/
def Builder.isForeign (b : Builder) (t : Token) : Bool :=
  t != .finished && b.inForeign && !b.allowsHtml t

/-- A start tag inside SVG and MathML. -/
def startInForeign (t : Tag) : Build Outcome := do
  let ns := (← get).surrounding.ns
  startForeign ns (if ns = svgNs then svgTagName t.name else t.name) t
  pure .done

/-- Closes elements up to one that is or holds HTML, and reads the token by the rules of HTML. -/
def breakOut (t : Token) : Build Outcome := do
  leaveWhile fun o => o.ns != htmlNs && !o.isFormulaText && !o.isDrawingText
  rule (← get).mode t

/-- What the end tag with a name closes inside SVG and MathML, from the innermost element on: the stack
below it; nothing, where there is no such element; or what the rules of HTML say. -/
inductive ForeignEnd where
  | closes (rest : List Open)
  | nothing
  | byHtml

/-- Looks for the element that an end tag closes. Of elements in HTML only the innermost one, and never
the one at the bottom, is closed by these rules. -/
def ForeignEnd.find (name : String) (first : Bool) : List Open → ForeignEnd
  | [] | [_] => nothing
  | o :: os =>
    if !first && o.ns == htmlNs then byHtml
    else if o.name.toLower == name then closes os
    else find name false os

/-- The rules inside SVG and MathML. -/
def inForeign : Token → Build Outcome
  | .null => do
    write '\ufffd'
    pure .done
  | .char c => do
    if !isSpace c then forbidFrameset
    write c
    pure .done
  | .comment s => do
    addComment s
    pure .done
  | .startTag t => if breaksOut (.startTag t) then breakOut (.startTag t) else startInForeign t
  | .endTag name => do
    if breaksOut (.endTag name) then breakOut (.endTag name)
    else
      let b ← get
      match ForeignEnd.find name true b.opened with
      | .closes rest =>
        set { b with opened := rest }
        pure .done
      | .nothing => pure .done
      | .byHtml => rule b.mode (.endTag name)
  | .slip | .documentType _ | .finished => pure .done

/-- What a token does by the rules that it is read by. -/
def step (t : Token) : Build Outcome := do
  let b ← get
  if b.isForeign t then inForeign t else rule b.mode t

end DomHost.Markup
