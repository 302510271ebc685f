import DomHost.Event.Record
import DomHost.Json.Access
import DomHost.Json.Parse
import DomHost.Json.Print

/-!
# Event records as JSON

A record is written as an object with the fields in a fixed order; its data is tagged by `kind`. In
reading, a structure may be an object, whose unknown members are ignored and whose known ones may not
be repeated, or an array of its fields in order. Integers are accepted for floating-point fields, but
not the other way round, and have to be in range.

* `EventRecord.toJson`: writing;
* `EventRecord.ofJson?`: reading.
-/

namespace DomHost

open Json (quote list record boolean double single)

/-! ## Writing -/

/-- Modifier keys. -/
def Modifiers.toJson (m : Modifiers) : String :=
  record [("alt_key", boolean m.altKey), ("ctrl_key", boolean m.ctrlKey),
    ("meta_key", boolean m.metaKey), ("shift_key", boolean m.shiftKey)]

/-- Mouse fields, as members of an object. -/
def MouseFields.members (m : MouseFields) : List (String × String) :=
  [("client_x", double m.clientX), ("client_y", double m.clientY), ("page_x", double m.pageX),
    ("page_y", double m.pageY), ("screen_x", double m.screenX), ("screen_y", double m.screenY),
    ("offset_x", double m.offsetX), ("offset_y", double m.offsetY),
    ("button", toString m.button.toInt), ("buttons", toString m.buttons.toNat),
    ("modifiers", m.modifiers.toJson)]

/-- The description of a file. A content that is empty is left out. -/
def FileValue.toJson (f : FileValue) : String :=
  record <|
    [("name", quote f.name), ("mime_type", quote f.mimeType), ("size", toString f.size.toNat),
      ("last_modified", toString f.lastModified.toNat)] ++
    if f.content.isEmpty then [] else [("content", list (f.content.map fun b => toString b.toNat))]

/-- A submitted value. -/
def FormValue.toJson : FormValue → String
  | .text t => quote t
  | .file f => f.toJson

/-- Values by name. -/
def FieldMap.toJson (m : FieldMap) : String :=
  record (m.fields.map fun (name, vs) => (name, list (vs.map (·.toJson))))

/-- The kind and the fields of a record. -/
def EventData.members : EventData → String × List (String × String)
  | .none => ("none", [])
  | .mouse m => ("mouse", m.members)
  | .pointer p =>
    ("pointer",
      [("mouse", record p.mouse.members), ("pointer_id", toString p.pointerId.toInt),
        ("width", double p.width), ("height", double p.height), ("pressure", single p.pressure),
        ("tangential_pressure", single p.tangentialPressure), ("tilt_x", toString p.tiltX.toInt),
        ("tilt_y", toString p.tiltY.toInt), ("twist", toString p.twist.toInt),
        ("pointer_type", quote p.pointerType), ("is_primary", boolean p.isPrimary)])
  | .keyboard k =>
    ("keyboard",
      [("key", quote k.key), ("code", quote k.code), ("location", toString k.location.toNat),
        ("repeat", boolean k.repeated), ("is_composing", boolean k.isComposing),
        ("modifiers", k.modifiers.toJson)])
  | .wheel w =>
    ("wheel",
      [("mouse", record w.mouse.members), ("delta_x", double w.deltaX), ("delta_y", double w.deltaY),
        ("delta_z", double w.deltaZ), ("delta_mode", toString w.deltaMode.toNat)])
  | .composition data => ("composition", [("data", quote data)])
  | .animation a =>
    ("animation",
      [("animation_name", quote a.animationName), ("elapsed_time", single a.elapsedTime),
        ("pseudo_element", quote a.pseudoElement)])
  | .transition t =>
    ("transition",
      [("property_name", quote t.propertyName), ("elapsed_time", single t.elapsedTime),
        ("pseudo_element", quote t.pseudoElement)])
  | .form value checked values =>
    ("form", [("value", quote value), ("checked", boolean checked), ("values", values.toJson)])
  | .focus => ("focus", [])
  | .clipboard => ("clipboard", [])
  | .drag m files =>
    ("drag", [("mouse", record m.members), ("files", list (files.map (·.toJson)))])

/-- The data of a record, tagged by its kind. -/
def EventData.toJson (d : EventData) : String :=
  record (("kind", quote d.members.1) :: d.members.2)

/-- A record. -/
def EventRecord.toJson (r : EventRecord) : String :=
  record [("name", quote r.name), ("target", toString r.target.number.toNat),
    ("bubbles", boolean r.bubbles), ("data", r.data.toJson)]

/-! ## Reading -/

namespace Json

/-- The items of an array, each read in the same way. -/
def listOf? {α : Type} (f : Json → Option α) : Json → Option (List α)
  | array items => items.mapM f
  | _ => none

/-- The values of the members with a name. -/
def valuesOf (members : List (Option String × Json)) (name : String) : List Json :=
  (members.filter (·.1 == some name)).map (·.2)

/-- The fields of a structure in order, from an object or an array; one that may be missing is none
then. A required field that is missing, a repeated one, and an item too many are faults. -/
def fields? (names : List (String × Bool)) : Json → Option (List (Option Json))
  | object members =>
    names.mapM fun (name, required) =>
      match valuesOf members name with
      | [v] => some (some v)
      | [] => if required then none else some none
      | _ => none
  | array items =>
    let required := names.takeWhile (·.2)
    if required.length ≤ items.length && items.length ≤ names.length then
      some (items.map some ++ List.replicate (names.length - items.length) none)
    else none
  | _ => none

/-- The fields of a structure in order, all of which have to be there. -/
def required? (names : List String) (v : Json) : Option (List Json) := do
  (← v.fields? (names.map (·, true))).mapM id

end Json

open Json

/-- Reads modifier keys. -/
def Modifiers.ofJson? (v : Json) : Option Modifiers := do
  match ← v.required? ["alt_key", "ctrl_key", "meta_key", "shift_key"] with
  | [a, b, c, d] => some ⟨← a.bool?, ← b.bool?, ← c.bool?, ← d.bool?⟩
  | _ => none

/-- Reads mouse fields. -/
def MouseFields.ofJson? (v : Json) : Option MouseFields := do
  match ← v.required? ["client_x", "client_y", "page_x", "page_y", "screen_x", "screen_y", "offset_x",
    "offset_y", "button", "buttons", "modifiers"] with
  | [a, b, c, d, e, f, g, h, i, j, k] =>
    some ⟨← a.double?, ← b.double?, ← c.double?, ← d.double?, ← e.double?, ← f.double?, ← g.double?,
      ← h.double?, (← i.intIn? (-32768) 32767).toInt16, (← j.word? 16).toUInt16,
      ← Modifiers.ofJson? k⟩
  | _ => none

/-- Reads pointer fields. -/
def PointerFields.ofJson? (v : Json) : Option PointerFields := do
  match ← v.required? ["mouse", "pointer_id", "width", "height", "pressure", "tangential_pressure",
    "tilt_x", "tilt_y", "twist", "pointer_type", "is_primary"] with
  | [a, b, c, d, e, f, g, h, i, j, k] =>
    some ⟨← MouseFields.ofJson? a, ← b.int32?, ← c.double?, ← d.double?, ← e.single?, ← f.single?,
      ← g.int32?, ← h.int32?, ← i.int32?, ← j.text?, ← k.bool?⟩
  | _ => none

/-- Reads keyboard fields. -/
def KeyboardFields.ofJson? (v : Json) : Option KeyboardFields := do
  match ← v.required? ["key", "code", "location", "repeat", "is_composing", "modifiers"] with
  | [a, b, c, d, e, f] =>
    some ⟨← a.text?, ← b.text?, (← c.word? 32).toUInt32, ← d.bool?, ← e.bool?, ← Modifiers.ofJson? f⟩
  | _ => none

/-- Reads wheel fields. -/
def WheelFields.ofJson? (v : Json) : Option WheelFields := do
  match ← v.required? ["mouse", "delta_x", "delta_y", "delta_z", "delta_mode"] with
  | [a, b, c, d, e] =>
    some ⟨← MouseFields.ofJson? a, ← b.double?, ← c.double?, ← d.double?, (← e.word? 32).toUInt32⟩
  | _ => none

/-- Reads animation fields. -/
def AnimationFields.ofJson? (v : Json) : Option AnimationFields := do
  match ← v.required? ["animation_name", "elapsed_time", "pseudo_element"] with
  | [a, b, c] => some ⟨← a.text?, ← b.single?, ← c.text?⟩
  | _ => none

/-- Reads transition fields. -/
def TransitionFields.ofJson? (v : Json) : Option TransitionFields := do
  match ← v.required? ["property_name", "elapsed_time", "pseudo_element"] with
  | [a, b, c] => some ⟨← a.text?, ← b.single?, ← c.text?⟩
  | _ => none

/-- Reads the description of a file, whose content may be missing. -/
def FileValue.ofJson? (v : Json) : Option FileValue := do
  match ← v.fields? [("name", true), ("mime_type", true), ("size", true), ("last_modified", true),
    ("content", false)] with
  | [some a, some b, some c, some d, e] =>
    let content ←
      match e with
      | some bytes => bytes.listOf? fun b => (b.word? 8).map (·.toUInt8)
      | none => some []
    some ⟨← a.text?, ← b.text?, (← c.word? 64).toUInt64, (← d.word? 64).toUInt64, content⟩
  | _ => none

/-- Reads a submitted value: a text or a file. -/
def FormValue.ofJson? (v : Json) : Option FormValue :=
  match v with
  | .string s => s.map .text
  | v => (FileValue.ofJson? v).map .file

/-- Reads values by name; of a repeated name the last values stand. -/
def FieldMap.ofJson? : Json → Option FieldMap
  | .object members =>
    members.foldlM (fun (m : FieldMap) (name, v) => do
      some (m.put (← name) (← v.listOf? FormValue.ofJson?))) {}
  | _ => none

/-- A kind without fields: any members are ignored, but there may be no items. -/
def EventData.unit? (v : Json) (d : EventData) : Option EventData :=
  match v with
  | .array (_ :: _) => .none
  | _ => some d

/-- Reads the fields of a kind of record. -/
def EventData.ofKind? (kind : String) (v : Json) : Option EventData := do
  match kind with
  | "none" => unit? v .none
  | "mouse" => some (.mouse (← MouseFields.ofJson? v))
  | "pointer" => some (.pointer (← PointerFields.ofJson? v))
  | "keyboard" => some (.keyboard (← KeyboardFields.ofJson? v))
  | "wheel" => some (.wheel (← WheelFields.ofJson? v))
  | "composition" =>
    match ← v.required? ["data"] with
    | [a] => some (.composition (← a.text?))
    | _ => .none
  | "animation" => some (.animation (← AnimationFields.ofJson? v))
  | "transition" => some (.transition (← TransitionFields.ofJson? v))
  | "form" =>
    match ← v.required? ["value", "checked", "values"] with
    | [a, b, c] => some (.form (← a.text?) (← b.bool?) (← FieldMap.ofJson? c))
    | _ => .none
  | "focus" => unit? v .focus
  | "clipboard" => unit? v .clipboard
  | "drag" =>
    match ← v.required? ["mouse", "files"] with
    | [a, b] => some (.drag (← MouseFields.ofJson? a) (← b.listOf? FileValue.ofJson?))
    | _ => .none
  | _ => .none

/-- How deep a text may nest arrays and objects, where they are looked into. -/
def maxDepth : Nat := 127

/-- Reads the data of a record: an object with one member `kind`, or an array that begins with it. All
of it has to stand for something, and lies one level deep. -/
def EventData.ofJson? (v : Json) : Option EventData :=
  if v.depth + 1 ≤ maxDepth && v.hasContent then
    match v with
    | .object members =>
      match valuesOf members "kind" with
      | [kind] => do ofKind? (← kind.text?) (.object (members.filter (·.1 != some "kind")))
      | _ => .none
    | .array (kind :: rest) => do ofKind? (← kind.text?) (.array rest)
    | _ => .none
  else .none

/-- Reads a record. -/
def EventRecord.ofValue? (v : Json) : Option EventRecord := do
  match v with
  | .object members => guard (members.all (·.1.isSome))
  | _ => pure ()
  match ← v.required? ["name", "target", "bubbles", "data"] with
  | [a, b, c, d] =>
    some ⟨← a.text?, ⟨(← b.word? 32).toUInt32⟩, ← c.bool?, ← EventData.ofJson? d⟩
  | _ => none

/-- Reads the text of a record. -/
def EventRecord.ofJson? (text : String) : Option EventRecord := (parse? text).bind ofValue?

end DomHost
