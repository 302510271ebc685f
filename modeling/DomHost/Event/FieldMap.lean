import DomHost.Document.Form

/-!
# Form fields by name

The entry list of a form, gathered by name: each name once, in the order of the alphabet, with its
values in the order of the list.

* `FieldMap.add`, `FieldMap.put`: a value more, or all values of a name;
* `FieldMap.ofEntries`: gathering an entry list;
* `Document.fieldMap`: the fields of a form.
-/

namespace DomHost

/-- The description of a file that a form submits. -/
structure FileValue where
  name : String
  mimeType : String
  size : UInt64
  lastModified : UInt64
  content : List UInt8
deriving DecidableEq

/-- The description of a file. -/
def FileValue.ofFile (f : FileEntry) : FileValue :=
  ⟨f.name, f.mimeType, UInt64.ofNat f.content.length, f.lastModified, f.content⟩

/-- A submitted value. -/
inductive FormValue where
  | text (value : String)
  | file (file : FileValue)
deriving DecidableEq

/-- The value that an entry of a form submits. -/
def FormValue.ofEntry : FormEntry → FormValue
  | .text t => .text t
  | .file f => .file (.ofFile f)

/-- Values by name, the names in increasing order. -/
structure FieldMap where
  fields : List (String × List FormValue) := []
deriving DecidableEq

namespace FieldMap

/-- Changes the values of a name in a list in increasing order of names. -/
def alter (name : String) (f : List FormValue → List FormValue) :
    List (String × List FormValue) → List (String × List FormValue)
  | [] => [(name, f [])]
  | (n, vs) :: rest =>
    if name < n then (name, f []) :: (n, vs) :: rest
    else if n = name then (n, f vs) :: rest
    else (n, vs) :: alter name f rest

/-- Adds a value of a name behind those it has. -/
def add (m : FieldMap) (name : String) (v : FormValue) : FieldMap := ⟨alter name (· ++ [v]) m.fields⟩

/-- Sets the values of a name. -/
def put (m : FieldMap) (name : String) (vs : List FormValue) : FieldMap :=
  ⟨alter name (fun _ => vs) m.fields⟩

/-- The values of a name. -/
def get? (m : FieldMap) (name : String) : Option (List FormValue) := m.fields.lookup name

/-- Gathers an entry list. -/
def ofEntries (entries : List (String × FormEntry)) : FieldMap :=
  entries.foldl (fun m (name, e) => m.add name (.ofEntry e)) {}

end FieldMap

/-- The fields of a form. -/
def Document.fieldMap (d : Document) (form : NodeRef) : Except DomError FieldMap := do
  pure (.ofEntries (← d.formData form).entries)

end DomHost
