import DomHost.Edit.Instruction
import DomHost.Json.Access
import DomHost.Json.Print

/-!
# Instructions as JSON

Edit instructions and template descriptors written by hand or written out for inspection. In reading,
what is missing is empty, and a descriptor may say how often it is repeated.

* `Instruction.ofJson?`, `Instruction.toJson`: instructions;
* `Descriptor.listOfJson`, `Descriptor.toJson`: descriptors.
-/

namespace DomHost

open Json (quote list record boolean optional)

/-- Reads an id. -/
def NodeId.ofJson (j : Json) : NodeId := ⟨j.toNat.toUInt32⟩

/-- An id as its number. -/
def NodeId.toJson (id : NodeId) : String := toString id.number.toNat

/-- Reads the number of a callback. -/
def CallbackId.ofJson (j : Json) : CallbackId := ⟨j.toNat.toUInt32⟩

/-- A callback as its number. -/
def CallbackId.toJson (c : CallbackId) : String := toString c.number.toNat

/-! ## Descriptors -/

/-- Reads a descriptor. -/
def Descriptor.ofJson (j : Json) : Descriptor :=
  match j.textAt "kind" with
  | "element" =>
    .element (j.textAt "tag") (j.textAt? "ns")
      ((j.itemsAt "attrs").map fun a => ⟨a.textAt "name", a.textAt "value", a.textAt? "ns"⟩)
      (j.natAt "children").toUInt32 (j.flagAt "slot")
  | "text" => .text (j.textAt "text")
  | "dynamic" => .dynamicText
  | _ => .placeholder

/-- Reads descriptors, each as often as it says. -/
def Descriptor.listOfJson (js : List Json) : List Descriptor :=
  js.flatMap fun j => List.replicate ((j.natAt? "repeat").getD 1) (.ofJson j)

/-- A descriptor. -/
def Descriptor.toJson : Descriptor → String
  | element tag ns attributes childCount slot =>
    record [("kind", quote "element"), ("tag", quote tag), ("ns", optional quote ns),
      ("attrs", list (attributes.map fun a =>
        record [("name", quote a.name), ("value", quote a.value), ("ns", optional quote a.ns)])),
      ("children", toString childCount.toNat), ("slot", boolean slot)]
  | text t => record [("kind", quote "text"), ("text", quote t)]
  | dynamicText => record [("kind", quote "dynamic")]
  | placeholder => record [("kind", quote "placeholder")]

/-! ## Instructions -/

namespace Instruction

/-- Reads an instruction. -/
def ofJson? (j : Json) : Option Instruction :=
  let id := NodeId.ofJson (j.member "id")
  let nodes := (j.itemsAt "nodes").map NodeId.ofJson
  let name := j.textAt "name"
  let value := j.textAt "value"
  let ns := j.textAt? "ns"
  let template := (j.natAt "template").toUInt32
  let callback := CallbackId.ofJson (j.member "cb")
  let capture := j.flagAt "capture"
  match j.textAt "i" with
  | "create_element" => some (createElement id (j.textAt "tag") ns)
  | "create_text" => some (createText id (j.textAt "text"))
  | "create_placeholder" => some (createPlaceholder id)
  | "load_template" => some (loadTemplate template id ((j.itemsAt "slots").map NodeId.ofJson))
  | "save_template" => some (saveTemplate template (Descriptor.listOfJson (j.itemsAt "nodes")))
  | "bind" => some (bindElementById id (j.textAt "dom_id"))
  | "set_attr" => some (setAttribute id name value ns)
  | "remove_attr" => some (removeAttribute id name ns)
  | "toggle_attr" => some (toggleAttribute id name (j.flagAt? "force"))
  | "set_style" => some (setStyle id name value)
  | "set_prop" => (Property.ofName? (j.textAt "prop")).map fun p => setProperty id p value
  | "append" => some (appendChildren id nodes)
  | "before" => some (insertBefore id nodes)
  | "after" => some (insertAfter id nodes)
  | "replace" => some (replaceWith id nodes)
  | "remove" => some (remove id)
  | "free" => some (freeId id)
  | "listen" => some (addListener id name callback capture)
  | "unlisten" => some (removeListener id name callback capture)
  | _ => none

/-- The name and the operands of an instruction. -/
def members (i : Instruction) : String × List (String × String) :=
  let named (id : NodeId) (rest : List (String × String)) := ("id", id.toJson) :: rest
  let onNodes (id : NodeId) (nodes : List NodeId) := named id [("nodes", list (nodes.map (·.toJson)))]
  let listener (id : NodeId) (name : String) (cb : CallbackId) (capture : Bool) :=
    named id [("name", quote name), ("cb", cb.toJson), ("capture", boolean capture)]
  match i with
  | createElement id tag ns =>
    ("create_element", named id [("tag", quote tag), ("ns", optional quote ns)])
  | createText id t => ("create_text", named id [("text", quote t)])
  | createPlaceholder id => ("create_placeholder", named id [])
  | loadTemplate template id slots =>
    ("load_template",
      named id [("template", toString template.toNat), ("slots", list (slots.map (·.toJson)))])
  | saveTemplate template nodes =>
    ("save_template",
      [("template", toString template.toNat), ("nodes", list (nodes.map (·.toJson)))])
  | bindElementById id domId => ("bind", named id [("dom_id", quote domId)])
  | setAttribute id name value ns =>
    ("set_attr", named id [("name", quote name), ("value", quote value), ("ns", optional quote ns)])
  | removeAttribute id name ns =>
    ("remove_attr", named id [("name", quote name), ("ns", optional quote ns)])
  | toggleAttribute id name force =>
    ("toggle_attr", named id [("name", quote name), ("force", optional boolean force)])
  | setStyle id property value =>
    ("set_style", named id [("name", quote property), ("value", quote value)])
  | setProperty id p value => ("set_prop", named id [("prop", quote p.name), ("value", quote value)])
  | appendChildren id nodes => ("append", onNodes id nodes)
  | insertBefore id nodes => ("before", onNodes id nodes)
  | insertAfter id nodes => ("after", onNodes id nodes)
  | replaceWith id nodes => ("replace", onNodes id nodes)
  | remove id => ("remove", named id [])
  | freeId id => ("free", named id [])
  | addListener id name cb capture => ("listen", listener id name cb capture)
  | removeListener id name cb capture => ("unlisten", listener id name cb capture)

/-- An instruction with all its operands. -/
def toJson (i : Instruction) : String := record (("i", quote i.members.1) :: i.members.2)

end Instruction

end DomHost
