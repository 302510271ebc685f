import DomHost.Document.Form

/-!
# Entry lists made in one walk

The entry list of a form is made without lists in between: the nodes below the form are walked through in pre-order,
and each entry goes to the end of the list as it comes.

* `Document.collectControl`, `Document.collectNode`: one round of the walk;
* `Document.formDataByWalk`: the whole walk.
-/

namespace DomHost.Document

/-- Appends the entries of a control that has a name and is not disabled. -/
def collectControl (d : Document) (data : FormData) (r : NodeRef) (e : Element) (name : String) : FormData :=
  match e.kind with
  | .select => (d.selectedOptions r).foldl (fun data o => data.append name (d.valueEntry o)) data
  | .input =>
    match d.inputType r with
    | "submit" | "button" | "reset" | "image" => data
    | "checkbox" | "radio" => if d.checked r then data.append name (d.valueEntry r) else data
    | "file" =>
      let data := if (d.files r).isEmpty then data.append name (.file .unpicked) else data
      (d.files r).foldl (fun data f => data.append name (.file f)) data
    | _ => data.append name (d.valueEntry r)
  | _ => data.append name (d.valueEntry r)

/-- Appends the entries of a node, if it is a control that contributes any. -/
def collectNode (d : Document) (data : FormData) (r : NodeRef) : FormData :=
  match d.store.element? r with
  | none => data
  | some e =>
    if !e.kind.isFormControl || e.hasAttr "disabled" then data
    else
      match e.attr? "name" with
      | some name => if name.isEmpty then data else d.collectControl data r e name
      | none => data

/-- The entry list that a form submits, made node by node. -/
def formDataByWalk (d : Document) (form : NodeRef) : Except DomError FormData :=
  if d.kind? form = some .form then .ok ((d.store.descendants form).tail.foldl d.collectNode {})
  else .error (.notAForm form)

end DomHost.Document
