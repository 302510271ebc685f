import DomHost.Document.Dump
import DomHost.Event.Native

/-!
# Native events as JSON

Events described by hand: what is missing has its default.

* `NativeEvent.ofJson`: an event for a target;
* `EventControl.ofJson`: what a handler asks for;
* `EventPhase.name`: the names of the phases.
-/

namespace DomHost

/-- The name of a phase. -/
def EventPhase.name : EventPhase → String
  | none => "none"
  | capturing => "capturing"
  | atTarget => "at_target"
  | bubbling => "bubbling"

/-- Reads modifier keys. -/
def Modifiers.ofJson (j : Json) : Modifiers :=
  ⟨j.flagAt "alt", j.flagAt "ctrl", j.flagAt "meta", j.flagAt "shift"⟩

/-- Reads mouse fields, or a point; a button that does not exist is the primary one. -/
def MouseFields.ofJson (j : Json) : MouseFields :=
  match j.itemsAt "at_xy" with
  | [x, y] => .at x.toFloat y.toFloat
  | _ =>
    { clientX := j.floatAt "client_x", clientY := j.floatAt "client_y"
      pageX := j.floatAt "page_x", pageY := j.floatAt "page_y"
      screenX := j.floatAt "screen_x", screenY := j.floatAt "screen_y"
      offsetX := j.floatAt "offset_x", offsetY := j.floatAt "offset_y"
      button := ((MouseButton.ofNumber? (j.intAt "button")).getD .primary).number
      buttons := (j.natAt "buttons").toUInt16, modifiers := .ofJson (j.member "modifiers") }

/-- Reads the interface of an event and its fields. -/
def EventDetail.ofJson (j : Json) : EventDetail :=
  let mouse := MouseFields.ofJson (j.member "mouse")
  match j.textAt "kind" with
  | "mouse" => .mouse (.ofJson j)
  | "pointer" =>
    .pointer
      { mouse, pointerId := (j.intAt "pointer_id").toInt32, width := j.floatAtD "width" 1
        height := j.floatAtD "height" 1, pressure := j.singleAt "pressure"
        tangentialPressure := j.singleAt "tangential_pressure", tiltX := (j.intAt "tilt_x").toInt32
        tiltY := (j.intAt "tilt_y").toInt32, twist := (j.intAt "twist").toInt32
        pointerType := (j.textAt? "pointer_type").getD "mouse"
        isPrimary := (j.flagAt? "is_primary").getD true }
  | "wheel" =>
    .wheel ⟨mouse, j.floatAt "delta_x", j.floatAt "delta_y", j.floatAt "delta_z",
      (j.natAt "delta_mode").toUInt32⟩
  | "keyboard" =>
    .keyboard ⟨j.textAt "key", j.textAt "code", (j.natAt "location").toUInt32, j.flagAt "repeat",
      j.flagAt "is_composing", .ofJson (j.member "modifiers")⟩
  | "composition" => .composition (j.textAt "data")
  | "animation" =>
    .animation ⟨j.textAt "animation_name", j.singleAt "elapsed_time", j.textAt "pseudo_element"⟩
  | "transition" =>
    .transition ⟨j.textAt "property_name", j.singleAt "elapsed_time", j.textAt "pseudo_element"⟩
  | "drag" => .drag mouse ((j.itemsAt "files").map .ofJson)
  | _ => .none

/-- Reads an event for a target. -/
def NativeEvent.ofJson (j : Json) (target : NodeRef) : NativeEvent :=
  { type := j.textAt "type", target, bubbles := (j.flagAt? "bubbles").getD true
    cancelable := (j.flagAt? "cancelable").getD true, timestamp := j.floatAt "timestamp"
    detail := .ofJson (j.member "detail") }

/-- Reads one thing that a handler asks for. -/
def EventRequest.ofJson? (j : Json) : Option EventRequest :=
  match j.text? with
  | some "prevent" => some .preventDefault
  | some "stop" => some .stopPropagation
  | some "immediate" => some .stopImmediate
  | _ => none

/-- Reads what a handler asks for. -/
def EventControl.ofJson (j : Json) : EventControl :=
  .ofRequests (j.items.filterMap EventRequest.ofJson?)

end DomHost
