import DomHost.Document.Basic
import DomHost.Event.Native

/-!
# Event dispatch

An event visits the nodes from the top of the tree down to its target, where the listeners of the
capture phase are called, and then from the target up, where the others are called; an event that
does not bubble visits only the target on the way up. A listener may ask to stop after the node it
is on, or at once.

* `Document.stops`: the visits of an event, in order;
* `Document.visit`: the calls of one visit;
* `Document.dispatch`: the whole dispatch, which tells whether the default action goes ahead.
-/

namespace DomHost.Document

/-- One visit of a dispatch: a node, and whether it is the way down. -/
structure Stop where
  node : NodeRef
  capture : Bool
deriving DecidableEq

/-- The visits of an event to a target, given the way from the target up. -/
def stops (path : List NodeRef) (bubbles : Bool) : List Stop :=
  path.reverse.map (⟨·, true⟩) ++ (if bubbles then path else path.take 1).map (⟨·, false⟩)

/-- How a visit looks from the target. -/
def phaseAt (target : NodeRef) (stop : Stop) : EventPhase :=
  if stop.node = target then .atTarget else if stop.capture then .capturing else .bubbling

/-- What is running while an event is dispatched; `caller` is the state of the one who calls the
handlers. -/
structure Delivery (σ : Type) where
  document : Document
  event : NativeEvent
  caller : σ

/-- Calls a handler. The document cannot be edited meanwhile. -/
abbrev Invoke (σ : Type) := Document → HandlerId → NativeEvent → σ → EventControl × σ

variable {σ : Type}

/-- Calls one listener; one that is to be called once is removed first. -/
def call (invoke : Invoke σ) (stop : Stop) (l : Listener) (v : Delivery σ) : Delivery σ :=
  let document :=
    if l.options.once then
      { v.document with
        listeners := (v.document.listeners.remove stop.node l.type l.handler stop.capture).2 }
    else v.document
  let (control, caller) := invoke document l.handler v.event v.caller
  ⟨document, v.event.obey control, caller⟩

/-- Calls listeners until one stops the event at once. -/
def callAll (invoke : Invoke σ) (stop : Stop) : List Listener → Delivery σ → Delivery σ
  | [], v => v
  | l :: rest, v =>
    let v := call invoke stop l v
    if v.event.immediateStopped then v else callAll invoke stop rest v

/-- Calls the listeners of one visit that are there when it begins. -/
def visit (invoke : Invoke σ) (stop : Stop) (v : Delivery σ) : Delivery σ :=
  let event := { v.event with phase := phaseAt v.event.target stop, currentTarget := stop.node }
  let listeners := (v.document.listeners.listenersFor stop.node event.type).filter
    (·.options.capture == stop.capture)
  callAll invoke stop listeners { v with event }

/-- Makes visits in order until the event is stopped. -/
def visitAll (invoke : Invoke σ) : List Stop → Delivery σ → Delivery σ
  | [], v => v
  | stop :: rest, v =>
    let v := visit invoke stop v
    if v.event.propagationStopped then v else visitAll invoke rest v

/-- Dispatches an event to a live target. Afterwards the event is in no phase and at no node, and its
default action goes ahead unless it was prevented. -/
def dispatch (invoke : Invoke σ) (v : Delivery σ) : Except DomError (Bool × Delivery σ) := do
  discard (v.document.store.node v.event.target)
  let path := v.document.store.ancestors v.event.target
  let v := visitAll invoke (stops path v.event.bubbles) v
  let event := { v.event with phase := .none, currentTarget := .nowhere }
  pure (!event.defaultPrevented, { v with event })

end DomHost.Document
