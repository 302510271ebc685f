import DomHost.Event.Payload
import DomHost.Node.Ref

/-!
# Native events

* `NativeEvent`: an event as it is raised, with the state of its dispatch;
* `EventControl`: what a handler asks for;
* `NativeEvent.obey`: the event after a handler has asked.
-/

namespace DomHost

/-- Where a dispatch stands, seen from the target. -/
inductive EventPhase where
  | none | capturing | atTarget | bubbling
deriving DecidableEq

/-- The interface that raised an event, with its fields. -/
inductive EventDetail where
  | none
  | mouse (fields : MouseFields)
  | pointer (fields : PointerFields)
  | wheel (fields : WheelFields)
  | keyboard (fields : KeyboardFields)
  | composition (data : String)
  | animation (fields : AnimationFields)
  | transition (fields : TransitionFields)
  | drag (mouse : MouseFields) (files : List FileEntry)

/-- An event with the state of its dispatch. -/
structure NativeEvent where
  type : String
  target : NodeRef
  bubbles : Bool := true
  cancelable : Bool := true
  timestamp : Float := 0
  detail : EventDetail := .none
  phase : EventPhase := .none
  currentTarget : NodeRef := .nowhere
  defaultPrevented : Bool := false
  propagationStopped : Bool := false
  immediateStopped : Bool := false

/-- What a handler asks for. Stopping at once includes stopping after the node. -/
structure EventControl where
  preventDefault : Bool := false
  stopPropagation : Bool := false
  stopImmediate : Bool := false
deriving DecidableEq

/-- One thing that a handler can ask for. -/
inductive EventRequest where
  | preventDefault | stopPropagation | stopImmediate
deriving DecidableEq

/-- Adds one thing to what a handler asks for. -/
def EventControl.ask (c : EventControl) : EventRequest → EventControl
  | .preventDefault => { c with preventDefault := true }
  | .stopPropagation => { c with stopPropagation := true }
  | .stopImmediate => { c with stopPropagation := true, stopImmediate := true }

/-- What a handler asks for in all. -/
def EventControl.ofRequests (rs : List EventRequest) : EventControl := rs.foldl .ask {}

/-- The event after a handler has asked. The default of an event that cannot be cancelled stays. -/
def NativeEvent.obey (e : NativeEvent) (c : EventControl) : NativeEvent :=
  { e with
    defaultPrevented := e.defaultPrevented || (c.preventDefault && e.cancelable)
    propagationStopped := e.propagationStopped || c.stopPropagation || c.stopImmediate
    immediateStopped := e.immediateStopped || c.stopImmediate }

end DomHost
