import DomHost.Binding
import DomHost.Event.Category
import DomHost.Event.FieldMap
import DomHost.Event.Native

/-!
# Event records

The form in which an event reaches the compute module: its name, the id of the node it is for, and
the fields of its category. What the event does not carry has its default, so there is a record for
every event.

* `EventRecord`, `EventData`: records and their fields;
* `EventRecord.ofEvent`: the record of an event.
-/

namespace DomHost

/-- The fields of an event record, by the category of the event. -/
inductive EventData where
  | none
  | mouse (fields : MouseFields)
  | pointer (fields : PointerFields)
  | keyboard (fields : KeyboardFields)
  | wheel (fields : WheelFields)
  | composition (data : String)
  | animation (fields : AnimationFields)
  | transition (fields : TransitionFields)
  | form (value : String) (checked : Bool) (values : FieldMap)
  | focus
  | clipboard
  | drag (mouse : MouseFields) (files : List FileValue)

/-- An event as the compute module sees it. -/
structure EventRecord where
  name : String
  target : NodeId
  bubbles : Bool
  data : EventData

/-- The mouse fields of an event, whatever interface carries them. -/
def EventDetail.mouseFields : EventDetail → MouseFields
  | .mouse m => m
  | .pointer p => p.mouse
  | .wheel w => w.mouse
  | .drag m _ => m
  | _ => {}

namespace EventData

/-- The fields of an event of a form: the state of its target and the entries of the form around it. -/
def ofForm (d : Document) (target : NodeRef) : EventData :=
  let values :=
    match d.enclosingForm? target with
    | .some f => (d.fieldMap f).toOption.getD {}
    | .none => {}
  .form ((d.value? target).getD "") (d.checked target) values

/-- The fields of an event of a category. -/
def ofEvent (d : Document) (e : NativeEvent) : Option EventCategory → EventData
  | .none => .none
  | .some .mouse => .mouse e.detail.mouseFields
  | .some .pointer =>
    match e.detail with
    | .pointer p => .pointer p
    | other => .pointer { mouse := other.mouseFields }
  | .some .keyboard =>
    match e.detail with
    | .keyboard k => .keyboard k
    | _ => .keyboard {}
  | .some .wheel =>
    match e.detail with
    | .wheel w => .wheel w
    | other => .wheel { mouse := other.mouseFields }
  | .some .composition =>
    match e.detail with
    | .composition data => .composition data
    | _ => .composition ""
  | .some .animation =>
    match e.detail with
    | .animation a => .animation a
    | _ => .animation {}
  | .some .transition =>
    match e.detail with
    | .transition t => .transition t
    | _ => .transition {}
  | .some .drag =>
    match e.detail with
    | .drag m files => .drag m (files.map .ofFile)
    | other => .drag other.mouseFields []
  | .some .form => ofForm d e.target
  | .some .focus => .focus
  | .some .clipboard => .clipboard

end EventData

/-- The record of an event for the node with an id. -/
def EventRecord.ofEvent (d : Document) (e : NativeEvent) (target : NodeId) : EventRecord :=
  ⟨e.type, target, e.bubbles, .ofEvent d e (EventCategory.ofName? e.type)⟩

end DomHost
