/-!
# Event categories

The names of events fall into categories with the same fields. All of them are delegated.

* `EventCategory.all`, `EventCategory.names`: the categories and their names;
* `EventCategory.ofName?`: the category of a name;
* `bubblesByName`: is an event of this name raised as one that bubbles?
* `delegatedNames`: all names, category by category.
-/

namespace DomHost

/-- A family of events with the same fields. -/
inductive EventCategory where
  | keyboard | mouse | pointer | wheel | composition | animation | transition | form | focus
  | clipboard | drag
deriving DecidableEq

namespace EventCategory

/-- All categories. -/
def all : List EventCategory :=
  [keyboard, mouse, pointer, wheel, composition, animation, transition, form, focus, clipboard, drag]

/-- The name of a category. -/
def name : EventCategory → String
  | keyboard => "keyboard"
  | mouse => "mouse"
  | pointer => "pointer"
  | wheel => "wheel"
  | composition => "composition"
  | animation => "animation"
  | transition => "transition"
  | form => "form"
  | focus => "focus"
  | clipboard => "clipboard"
  | drag => "drag"

/-- The names of the events of a category. -/
def names : EventCategory → List String
  | keyboard => ["keydown", "keyup", "keypress"]
  | mouse =>
    ["click", "contextmenu", "dblclick", "mousedown", "mouseenter", "mouseleave", "mousemove",
      "mouseout", "mouseover", "mouseup"]
  | pointer =>
    ["pointerdown", "pointermove", "pointerup", "pointercancel", "gotpointercapture",
      "lostpointercapture", "pointerenter", "pointerleave", "pointerover", "pointerout"]
  | wheel => ["wheel"]
  | composition => ["compositionstart", "compositionupdate", "compositionend"]
  | animation => ["animationstart", "animationend", "animationiteration"]
  | transition => ["transitionrun", "transitionstart", "transitionend", "transitioncancel"]
  | form => ["input", "change", "submit", "reset", "invalid"]
  | focus => ["focus", "blur", "focusin", "focusout"]
  | clipboard => ["copy", "cut", "paste"]
  | drag =>
    ["drag", "dragend", "dragenter", "dragexit", "dragleave", "dragover", "dragstart", "drop"]

/-- The category of an event name. -/
def ofName? (name : String) : Option EventCategory := all.find? (·.names.contains name)

end EventCategory

/-- Is an event of this name raised as one that bubbles? -/
def bubblesByName (name : String) : Bool :=
  !(["focus", "blur", "mouseenter", "mouseleave", "pointerenter", "pointerleave",
    "invalid"].contains name)

/-- The names of all delegated events. -/
def delegatedNames : List String := EventCategory.all.flatMap (·.names)

end DomHost
