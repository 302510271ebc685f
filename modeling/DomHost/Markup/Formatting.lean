import DomHost.Markup.Builder

/-!
# Formatting elements

A formatting element ends with its end tag, not with the element it stands in: what it formats goes on
in later elements, for which it is opened again. Where its end tag comes while a block inside it is
open, the block moves out of it, and what stands in the block is formatted by an element of its own.
No more than three equal ones go on at a time.

* `reopenFormatting`: opens the formatting elements that go on;
* `startFormatting`, `endFormatting`: their tags;
* `raiseBarrier`, `dropBarrier`: elements in which nothing of what is around them goes on;
* `endOther`: the end tag of an element without rules of its own.
-/

namespace DomHost.Markup

/-- The elements with rules of their own, which an end tag of no special kind does not reach beyond. -/
def specialTags : List String :=
  ["address", "applet", "area", "article", "aside", "base", "basefont", "bgsound", "blockquote",
    "body", "br", "button", "caption", "center", "col", "colgroup", "dd", "details", "dir", "div",
    "dl", "dt", "embed", "fieldset", "figcaption", "figure", "footer", "form", "frame", "frameset",
    "h1", "h2", "h3", "h4", "h5", "h6", "head", "header", "hgroup", "hr", "html", "iframe", "img",
    "input", "isindex", "li", "link", "listing", "main", "marquee", "menu", "meta", "nav",
    "noembed", "noframes", "noscript", "object", "ol", "p", "param", "plaintext", "pre", "script",
    "section", "select", "source", "style", "summary", "table", "tbody", "td", "template",
    "textarea", "tfoot", "th", "thead", "title", "tr", "track", "ul", "wbr", "xmp"]

/-- Closes an element that has no rules of its own, unless an element with such rules hides it. -/
def endOther (name : String) : Build Unit := do
  let isSpecial (o : Open) : Bool := o.isHtml specialTags
  if (← get).reaches isSpecial [name] then close name

/-! ## The list of formatting elements -/

/-- The formatting elements in front of the first barrier. -/
def unbarred (entries : List (Option Formatted)) : List Formatted :=
  (entries.takeWhile Option.isSome).filterMap id

/-- Removes a formatting element from the list. -/
def forget (o : Open) : Build Unit :=
  modify fun b =>
    { b with formatting := b.formatting.filter fun e => !e.any (·.element.id == o.id) }

/-- Puts a formatting element in the place of another one. -/
def replaceFormatting (old : Open) (new : Formatted) : Build Unit :=
  modify fun b =>
    { b with
      formatting := b.formatting.map fun e =>
        if e.any (·.element.id == old.id) then some new else e }

/-- Hides the formatting elements that there are. -/
def raiseBarrier : Build Unit := modify fun b => { b with formatting := none :: b.formatting }

/-- Drops the formatting elements in front of the first barrier, and the barrier. -/
def dropBarrier : Build Unit :=
  modify fun b => { b with formatting := (b.formatting.dropWhile Option.isSome).drop 1 }

/-- Removes an element from the stack, wherever it is. -/
def removeOpen (o : Open) : Build Unit :=
  modify fun b => { b with opened := b.opened.filter (·.id != o.id) }

/-! ## Opening formatting elements -/

/-- Opens a formatting element again. -/
def reopen : Option Formatted → Build (Option Formatted)
  | some f => do pure (some ⟨← enter f.tag, f.tag⟩)
  | none => pure none

/-- Opens the formatting elements that go on although they are not open, the oldest one first. -/
def reopenFormatting : Build Unit := do
  let b ← get
  let closed := b.formatting.takeWhile fun e => e.any fun f => !b.isOpen f.element
  let reopened ← closed.reverse.mapM reopen
  modify fun b => { b with formatting := reopened.reverse ++ b.formatting.drop closed.length }

/-- Are these tags equal but for the order of their attributes? -/
def Tag.sameAs (s t : Tag) : Bool :=
  s.name == t.name && s.attributes.length == t.attributes.length &&
    s.attributes.all t.attributes.contains

/-- Opens a formatting element. Where three equal ones go on already, the oldest is forgotten. -/
def startFormatting (t : Tag) : Build Unit := do
  let equal := (unbarred (← get).formatting).filter (·.tag.sameAs t)
  if 3 ≤ equal.length then
    match equal.getLast? with
    | some oldest => forget oldest.element
    | none => pure ()
  let element ← enter t
  modify fun b => { b with formatting := some ⟨element, t⟩ :: b.formatting }

/-! ## Closing formatting elements -/

/-- Where in the list of formatting elements one is put: in the place of the one that ends, or right
behind another one. -/
inductive Bookmark where
  | replacing
  | behind (o : Open)

/-- Copies the elements between a block and the formatting element around it, from the block outward:
each copy takes the branch `last` below it. Only the first three that are formatting elements are
copied; the others are closed. -/
def copyBetween (block : Open) (n last : Nat) (mark : Bookmark) :
    List Open → Build (Nat × Bookmark)
  | [] => pure (last, mark)
  | o :: os => do
    match (← get).formatting.findSome? (·.filter (·.element.id == o.id)) with
    | some f =>
      if 3 ≤ n then
        forget o
        removeOpen o
        copyBetween block (n + 1) last mark os
      else
        let copy ← createOf f.tag
        modify fun b =>
          { b with opened := b.opened.map fun x => if x.id = o.id then copy else x }
        replaceFormatting o ⟨copy, f.tag⟩
        modify fun b => { b with draft := b.draft.detach last }
        putAt last (.inside copy.id)
        copyBetween block (n + 1) copy.id (if last = block.id then .behind copy else mark) os
    | none =>
      removeOpen o
      copyBetween block (n + 1) last mark os

/-- Moves a block out of a formatting element that ends in it. `between` are the elements between the
two, from the block outward, and `around` is the element around both. -/
def moveOut (f : Formatted) (block around : Open) (between : List Open) : Build Unit := do
  let (last, mark) ← copyBetween block 0 block.id .replacing between
  modify fun b => { b with draft := b.draft.detach last }
  putAt last ((← get).spotIn around)
  let inner ← createOf f.tag
  modify fun b => { b with draft := b.draft.hand block.id inner.id }
  putAt inner.id (.inside block.id)
  match mark with
  | .replacing => replaceFormatting f.element ⟨inner, f.tag⟩
  | .behind o =>
    modify fun b =>
      { b with
        formatting := b.formatting.flatMap fun e =>
          if e.any (·.element.id == o.id) then [some ⟨inner, f.tag⟩, e] else [e] }
    forget f.element
  removeOpen f.element
  modify fun b =>
    { b with opened := b.opened.flatMap fun x => if x.id = block.id then [inner, x] else [x] }

/-- Closes a formatting element with a name, where one goes on, by one step; the answer is whether there
may be more to do. -/
def endOneFormatting (name : String) : Build Bool := do
  let b ← get
  match (unbarred b.formatting).find? (·.tag.name == name) with
  | none =>
    endOther name
    pure false
  | some f =>
    if !b.isOpen f.element then
      forget f.element
      pure false
    else if !Builder.reachesIn Builder.hides (·.id == f.element.id) b.opened then pure false
    else
      let within := b.opened.takeWhile (·.id != f.element.id)
      match within.reverse.find? (·.isHtml specialTags) with
      | none =>
        leaveWhile (·.id != f.element.id)
        leave
        forget f.element
        pure false
      | some block =>
        let between := (within.dropWhile (·.id != block.id)).drop 1
        moveOut f block ((b.opened.drop (within.length + 1)).headD b.current) between
        pure true

/-- Closes a formatting element with a name, in at most `n` steps. -/
def endFormattingIn (name : String) : (n : Nat) → Build Unit
  | 0 => pure ()
  | n + 1 => do if ← endOneFormatting name then endFormattingIn name n

/-- The end tag of a formatting element. -/
def endFormatting (name : String) : Build Unit := do
  let b ← get
  if b.currentIs [name] && !(b.formatting.any (·.any (·.element.id == b.current.id))) then leave
  else endFormattingIn name 8

/-- Closes a link in which another one starts. -/
def endLink : Build Unit := do
  match (unbarred (← get).formatting).find? (·.element.isHtml ["a"]) with
  | some f =>
    endFormatting "a"
    forget f.element
    removeOpen f.element
  | none => pure ()

end DomHost.Markup
