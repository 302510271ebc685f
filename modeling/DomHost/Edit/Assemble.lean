import DomHost.Edit.Scene
import DomHost.Store.Content

/-!
# Building and copying templates

A template is built from its descriptors one by one. An element waits for its children, and gets them
when the last one is complete; nothing is undone when a descriptor is refused.

* `Scene.assemble`: the trees of a list of descriptors;
* `Scene.saveTemplate`: defining a template;
* `Scene.instantiate`: a copy of a template, with ids for its slots.
-/

namespace DomHost

/-- An element that waits for its last children. -/
structure OpenElement where
  node : NodeRef
  expected : Nat
  children : List NodeRef := []

/-- Where a list of descriptors has come to: the elements that wait for children, innermost first, the
trees that are complete, and the ways to the slots. -/
structure Assembly where
  waiting : List OpenElement := []
  roots : List NodeRef := []
  slots : List (List Nat) := []

namespace Assembly

/-- The way from the root to the next node, by child indices. -/
def path (a : Assembly) : List Nat := (a.waiting.map (·.children.length)).reverse

/-- Takes note of the next node if it is a slot. -/
def mark (a : Assembly) (d : Descriptor) : Assembly :=
  if d.isSlot then { a with slots := a.slots ++ [a.path] } else a

end Assembly

namespace Scene

variable {κ : Type}

/-- Hands a complete node to the element that waits for it, and that one on if it was the last. Gives
the elements that still wait, and the node if none did. -/
def complete (r : NodeRef) : List OpenElement → SceneM κ (List OpenElement × Option NodeRef)
  | [] => pure ([], some r)
  | o :: rest => do
    let children := o.children ++ [r]
    if children.length < o.expected then pure ({ o with children } :: rest, none)
    else
      children.forM fun c => Store.appendChild o.node c
      complete o.node rest

/-- Creates the node of a descriptor. -/
def createDescribed : Descriptor → SceneM κ NodeRef
  | .element tag ns attributes _ _ => do
    let r ← newElement tag ns
    attributes.forM fun a => writeAttribute r a.name a.value a.ns
    pure r
  | .text t => Store.createText t
  | .dynamicText => Store.createText ""
  | .placeholder => Store.createComment placeholderText

/-- Builds the trees of descriptors, of which there are `total` in all. -/
def assemble (total : Nat) : List Descriptor → Assembly → SceneM κ Assembly
  | [], a => if a.waiting.isEmpty then pure a else throw (.template (.malformed total))
  | d :: rest, a => do
    let a := a.mark d
    let r ← createDescribed d
    if 0 < d.childCount then
      assemble total rest { a with waiting := ⟨r, d.childCount, []⟩ :: a.waiting }
    else
      let (waiting, root?) ← complete r a.waiting
      assemble total rest { a with waiting, roots := a.roots ++ root?.toList }

/-- Defines a template. The same descriptors again change nothing; others replace the template, and
the old tree is freed. -/
def saveTemplate (number : UInt32) (descriptors : List Descriptor) : SceneM κ Unit := do
  let old := (← get).templates.get? number
  if old.any (·.descriptors == descriptors) then pure ()
  else
    let a ← assemble descriptors.length descriptors {}
    match a.roots with
    | [root] =>
      modify fun s => { s with templates := s.templates.put number ⟨descriptors, root, a.slots⟩ }
      match old with
      | some t => discard (Document.freeSubtree t.root)
      | none => pure ()
    | roots => throw (.template (.rootCount roots.length))

/-- Ties ids to the slots of a copy, in order. -/
def tieSlots (t : Template) (root : NodeRef) : List (List Nat × NodeId) → SceneM κ Unit
  | [] => pure ()
  | (path, id) :: rest => do
    match (← get).store.childAtPath? root path with
    | some r => tie id r
    | none => throw (.template (.malformed t.descriptors.length))
    tieSlots t root rest

/-- Copies a template and ties ids to its slots. The copy is detached, and its root has no id unless
it is a slot. -/
def instantiate (number : UInt32) (ids : List NodeId) : SceneM κ NodeRef := do
  match (← get).templates.get? number with
  | none => throw (.template (.unknown number))
  | some t =>
    if t.slots.length ≠ ids.length then
      throw (.template (.slotCount number t.slots.length ids.length))
    let root ← (Store.cloneSubtree t.root : DocumentM NodeRef)
    tieSlots t root (t.slots.zip ids)
    pure root

end Scene

end DomHost
