import DomHost.Document.Basic
import DomHost.Text.Blank

/-!
# Form controls

The value, checkedness and selectedness of a control is what was assigned last, or else what its
attributes say. The entry list of a form goes through the elements below it in tree order; each
control contributes its entries on its own.

* `Document.value?`, `setValue`, `checked`, `setChecked`, `files`, `setFiles`: the state of a control;
* `Document.options`, `Document.selectedOptions`: the choices of a `select`;
* `FormData`, `Document.contribution`, `Document.formData`: the entry list of a form;
* `Document.setProperty`: assigning a property.
-/

namespace DomHost

/-- The value of a form entry. -/
inductive FormEntry where
  | text (value : String)
  | file (file : FileEntry)
deriving DecidableEq

/-- An entry list: names with values, in order; a name may come several times. -/
structure FormData where
  entries : List (String × FormEntry) := []
deriving DecidableEq

namespace FormData

/-- Adds an entry at the end. -/
def append (f : FormData) (name : String) (value : FormEntry) : FormData :=
  ⟨f.entries ++ [(name, value)]⟩

/-- All values of a name, in order. -/
def getAll (f : FormData) (name : String) : List FormEntry :=
  (f.entries.filter (·.1 == name)).map (·.2)

/-- The first value of a name. -/
def get? (f : FormData) (name : String) : Option FormEntry := (f.getAll name).head?

/-- Does the name come in the list? -/
def has (f : FormData) (name : String) : Bool := f.entries.any (·.1 == name)

/-- The number of entries. -/
def len (f : FormData) : Nat := f.entries.length

end FormData

namespace Document

/-- The part that a node plays in a form, if it is an element. -/
def kind? (d : Document) (r : NodeRef) : Option ElementKind := (d.store.element? r).map (·.kind)

/-- The lowercase type of an input, which is `text` when it has none. -/
def inputType (d : Document) (r : NodeRef) : String :=
  ((d.store.attribute? r "type").map (·.toLower)).getD "text"

/-- Is this an input that is checked or not? -/
def isCheckable (d : Document) (r : NodeRef) : Bool :=
  d.kind? r == some .input && ["checkbox", "radio"].contains (d.inputType r)

/-! ## Options -/

/-- The options below a node and the node itself if it is one, in tree order. -/
def options (d : Document) (select : NodeRef) : List NodeRef :=
  (d.store.descendants select).filter fun r => d.kind? r == some .selectOption

/-- Is an option marked as selected? -/
def isSelected (d : Document) (option : NodeRef) : Bool :=
  (d.store.element? option).any fun e => e.control.selected.getD (e.hasAttr "selected")

/-- The options that a `select` shows as selected: all that are marked, if it allows several; else the
last one marked, or the first that is not disabled when none is. -/
def selectedOptions (d : Document) (select : NodeRef) : List NodeRef :=
  let options := d.options select
  let marked := options.filter d.isSelected
  if (d.store.attribute? select "multiple").isSome then marked
  else
    match marked.getLast? with
    | some last => [last]
    | none => (options.find? fun r => (d.store.attribute? r "disabled").isNone).toList

/-- The value of an option: its attribute, or else its text with single spaces between the words. -/
def optionValue (d : Document) (option : NodeRef) (e : Element) : String :=
  (e.attr? "value").getD (String.intercalate " " (Text.words (d.store.textContent option)))

/-! ## Values -/

/-- The value of a control or option, or the attribute `value` of another element. -/
def value? (d : Document) (r : NodeRef) : Option String := do
  let e ← d.store.element? r
  match e.kind with
  | .input =>
    match e.control.value, e.attr? "value" with
    | some v, _ => some v
    | none, some v => some v
    | none, none => some (if d.isCheckable r then "on" else "")
  | .textArea => some (e.control.value.getD (d.store.textContent r))
  | .select =>
    let chosen := (d.selectedOptions r).head?
    some ((chosen.bind fun o => (d.store.element? o).map (d.optionValue o)).getD "")
  | .selectOption => some (d.optionValue r e)
  | .form | .generic => e.attr? "value"

/-- Marks the first of the options that has a value as selected, and the others as not. -/
def select (value : String) : (options : List NodeRef) → (matched : Bool) → DocumentM Unit
  | [], _ => pure ()
  | o :: rest, matched => do
    let hit := !matched && (← get).value? o == some value
    Store.updateElement o fun e => { e with control := { e.control with selected := some hit } }
    select value rest (matched || hit)

/-- Assigns the value of a control; on other elements, the attribute `value`. -/
def setValue (r : NodeRef) (value : String) : DocumentM Unit := do
  let e ← Store.requireElement r
  match e.kind with
  | .input | .textArea =>
    Store.updateElement r fun e => { e with control := { e.control with value := some value } }
  | .select => select value ((← get).options r) false
  | .selectOption | .form | .generic => Store.setAttribute r "value" value

/-- Is an input checked? No other element is. -/
def checked (d : Document) (r : NodeRef) : Bool :=
  (d.store.element? r).any fun e =>
    e.kind == .input && e.control.checked.getD (e.hasAttr "checked")

/-- Checks or unchecks an input; other elements are left alone. -/
def setChecked (r : NodeRef) (checked : Bool) : DocumentM Unit :=
  Store.updateElement r fun e =>
    if e.kind = .input then { e with control := { e.control with checked := some checked } } else e

/-- The files picked into an element. -/
def files (d : Document) (r : NodeRef) : List FileEntry :=
  ((d.store.element? r).map (·.control.files)).getD []

/-- Picks files into an element. -/
def setFiles (r : NodeRef) (files : List FileEntry) : DocumentM Unit :=
  Store.updateElement r fun e => { e with control := { e.control with files } }

/-- Is this text of the property `checked` a yes? -/
def isTruthy (value : String) : Bool := !(["", "false", "0"].contains value)

/-- Assigns a property. Markup cannot be assigned without a parser for it. -/
def setProperty (r : NodeRef) (property : Property) (value : String) : DocumentM Unit :=
  match property with
  | .className => Store.setAttribute r "class" value
  | .textContent => Store.setTextContent r value
  | .value => setValue r value
  | .checked => setChecked r (isTruthy value)
  | .innerHtml => throw (.notSupported .innerHtml)

/-! ## The entry list of a form -/

/-- The value of a control, or the empty text. -/
def valueEntry (d : Document) (r : NodeRef) : FormEntry := .text ((d.value? r).getD "")

/-- The entries of a control that has a name and is not disabled. -/
def controlEntries (d : Document) (r : NodeRef) (e : Element) : List FormEntry :=
  match e.kind with
  | .select => (d.selectedOptions r).map d.valueEntry
  | .input =>
    let type := d.inputType r
    if ["submit", "button", "reset", "image"].contains type then []
    else if ["checkbox", "radio"].contains type then if d.checked r then [d.valueEntry r] else []
    else if type = "file" then
      match d.files r with
      | [] => [.file .unpicked]
      | files => files.map .file
    else [d.valueEntry r]
  | _ => [d.valueEntry r]

/-- What an element contributes to the entry list of a form. -/
def contribution (d : Document) (r : NodeRef) : List (String × FormEntry) :=
  match d.store.element? r with
  | none => []
  | some e =>
    if !e.kind.isFormControl || e.hasAttr "disabled" then []
    else
      match e.attr? "name" with
      | some name => if name.isEmpty then [] else (d.controlEntries r e).map (name, ·)
      | none => []

/-- The entry list that a form submits. -/
def formData (d : Document) (form : NodeRef) : Except DomError FormData :=
  if d.kind? form = some .form then
    .ok ⟨(d.store.descendants form).tail.flatMap d.contribution⟩
  else .error (.notAForm form)

/-- The nearest form at or above a node. -/
def enclosingForm? (d : Document) (r : NodeRef) : Option NodeRef :=
  (d.store.ancestors r).find? fun a => d.kind? a == some .form

end Document

end DomHost
