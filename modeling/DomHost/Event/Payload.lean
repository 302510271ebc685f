import DomHost.Node.Element

/-!
# What an event carries

The fields of an event beyond its type and target, by the kind of interface that raises it.

* `MouseFields`, `PointerFields`, `WheelFields`, `KeyboardFields`, `AnimationFields`,
  `TransitionFields`: the fields of each interface;
* `MouseButton`: the buttons, their numbers and their bits in a mask.
-/

namespace DomHost

/-- The modifier keys held down. -/
structure Modifiers where
  altKey : Bool := false
  ctrlKey : Bool := false
  metaKey : Bool := false
  shiftKey : Bool := false
deriving DecidableEq

/-- A mouse button. -/
inductive MouseButton where
  | primary | auxiliary | secondary | fourth | fifth
deriving DecidableEq

namespace MouseButton

/-- The button with a number from 0 to 4. -/
def ofNumber? (n : Int) : Option MouseButton :=
  if n = 0 then some primary
  else if n = 1 then some auxiliary
  else if n = 2 then some secondary
  else if n = 3 then some fourth
  else if n = 4 then some fifth
  else none

/-- The number of a button. -/
def number : MouseButton → Int16
  | primary => 0
  | auxiliary => 1
  | secondary => 2
  | fourth => 3
  | fifth => 4

/-- The bit of a button in a mask of pressed buttons. -/
def bit : MouseButton → UInt16
  | primary => 1
  | auxiliary => 4
  | secondary => 2
  | fourth => 8
  | fifth => 16

end MouseButton

/-- The fields of a mouse event. -/
structure MouseFields where
  clientX : Float := 0
  clientY : Float := 0
  pageX : Float := 0
  pageY : Float := 0
  screenX : Float := 0
  screenY : Float := 0
  offsetX : Float := 0
  offsetY : Float := 0
  button : Int16 := MouseButton.primary.number
  buttons : UInt16 := 0
  modifiers : Modifiers := {}

/-- A mouse event at a point of the viewport. -/
def MouseFields.at (x y : Float) : MouseFields :=
  { clientX := x, clientY := y, pageX := x, pageY := y }

/-- The fields of a pointer event. -/
structure PointerFields where
  mouse : MouseFields := {}
  pointerId : Int32 := 0
  width : Float := 1
  height : Float := 1
  pressure : Float32 := 0
  tangentialPressure : Float32 := 0
  tiltX : Int32 := 0
  tiltY : Int32 := 0
  twist : Int32 := 0
  pointerType : String := "mouse"
  isPrimary : Bool := true

/-- The fields of a wheel event. -/
structure WheelFields where
  mouse : MouseFields := {}
  deltaX : Float := 0
  deltaY : Float := 0
  deltaZ : Float := 0
  deltaMode : UInt32 := 0

/-- The fields of a keyboard event. -/
structure KeyboardFields where
  key : String := ""
  code : String := ""
  location : UInt32 := 0
  repeated : Bool := false
  isComposing : Bool := false
  modifiers : Modifiers := {}

/-- The fields of an animation event. -/
structure AnimationFields where
  animationName : String := ""
  elapsedTime : Float32 := 0
  pseudoElement : String := ""

/-- The fields of a transition event. -/
structure TransitionFields where
  propertyName : String := ""
  elapsedTime : Float32 := 0
  pseudoElement : String := ""

end DomHost
