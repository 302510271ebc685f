import DomHost.Markup.Rules.Body

/-!
# Behind the body

What follows the body of a document still belongs to it, but for comments. A document can have a set of
frames instead of a body.

* `inAfterBody`, `inAfterAfterBody`: behind the body and behind the document;
* `inFrameset`, `inAfterFrameset`, `inAfterAfterFrameset`: the same with frames.
-/

namespace DomHost.Markup

/-! ## Bodies -/

/-- Adds a comment to the element `html`. -/
def addCommentToHtml (text : String) : Build Unit := do
  match (← get).opened.getLast? with
  | some html => addCommentTo html.id text
  | none => pure ()

/-- The mode behind the body. -/
def inAfterBody : Token → Build Outcome
  | .char c =>
    if isSpace c then inBody (.char c) else againIn .inBody
  | .comment s => do
    addCommentToHtml s
    pure .done
  | .startTag t =>
    if t.name = "html" then inBody (.startTag t) else againIn .inBody
  | .endTag name => do
    if name = "html" then
      if (← get).context?.isNone then goTo .afterAfterBody
      pure .done
    else againIn .inBody
  | .finished => pure .done
  | _ => againIn .inBody

/-- The mode behind the document. -/
def inAfterAfterBody : Token → Build Outcome
  | .char c => if isSpace c then inBody (.char c) else againIn .inBody
  | .comment s => do
    addCommentTo 0 s
    pure .done
  | .startTag t => if t.name = "html" then inBody (.startTag t) else againIn .inBody
  | .finished => pure .done
  | _ => againIn .inBody

/-! ## Frames -/

/-- A start tag among frames. -/
def startAmongFrames (t : Tag) : Build Outcome := do
  if t.name = "html" then
    completeHtml t
    pure .done
  else if t.name = "noframes" then startInHead t
  else pure .done

/-- Writes white space. -/
def writeSpace (c : Char) : Build Unit := if isSpace c then write c else pure ()

/-- The mode in a set of frames. -/
def inFrameset : Token → Build Outcome
  | .char c => do
    writeSpace c
    pure .done
  | .comment s => do
    addComment s
    pure .done
  | .startTag t => do
    if t.name = "frameset" then
      start t
      pure .done
    else if t.name = "frame" then
      addEmpty t
      pure .done
    else startAmongFrames t
  | .endTag name => do
    if name = "frameset" && 1 < (← get).opened.length then
      leave
      let b ← get
      if b.context?.isNone && !b.currentIs ["frameset"] then goTo .afterFrameset
    pure .done
  | _ => pure .done

/-- The mode behind a set of frames. -/
def inAfterFrameset : Token → Build Outcome
  | .char c => do
    writeSpace c
    pure .done
  | .comment s => do
    addComment s
    pure .done
  | .startTag t => startAmongFrames t
  | .endTag name => do
    if name = "html" then goTo .afterAfterFrameset
    pure .done
  | _ => pure .done

/-- The mode behind a document with frames. -/
def inAfterAfterFrameset : Token → Build Outcome
  | .char c => if isSpace c then inBody (.char c) else pure .done
  | .comment s => do
    addCommentTo 0 s
    pure .done
  | .startTag t => startAmongFrames t
  | _ => pure .done

end DomHost.Markup
