import DomHost.Document.Basic
import DomHost.Event.FieldMap
import DomHost.Json.Access
import DomHost.Json.Print
import DomHost.Text.Hex

/-!
# Documents as JSON

What the nodes of a document are and how they are linked, written out for inspection.

* `NodeRef.toJson`: a reference as `index:generation`, or `null`;
* `NodeData.toJson`, `Listener.toJson`, `FileEntry.toJson`: the parts;
* `Store.dump`: a node and all below it, each with its links and data;
* `FileEntry.ofJson`: reading a file.
-/

namespace DomHost

open Json (quote list record boolean optional)

/-- A reference as its cell and generation. -/
def NodeRef.toJson : NodeRef → String
  | nowhere => "null"
  | cell i g => quote (toString i ++ ":" ++ toString g.toNat)

/-- References in order. -/
def NodeRef.listToJson (rs : List NodeRef) : String := list (rs.map toJson)

/-- A file. -/
def FileEntry.toJson (f : FileEntry) : String :=
  record [("name", quote f.name), ("mime_type", quote f.mimeType),
    ("content", quote (Text.hexOfBytes f.content)), ("last_modified", toString f.lastModified.toNat)]

/-- Reads a file; what is missing is empty. -/
def FileEntry.ofJson (j : Json) : FileEntry :=
  ⟨j.textAt "name", j.textAt "mime_type", Text.bytesOfHex (j.textAt "content"),
    (j.natAt "last_modified").toUInt64⟩

/-- A listener without its type. -/
def Listener.toJson (l : Listener) : String :=
  list [toString l.handler.number.toNat, boolean l.options.capture, boolean l.options.passive,
    boolean l.options.once]

/-- An entry of a form. -/
def FormEntry.toJson : FormEntry → String
  | text t => quote t
  | file f => f.toJson

/-- A submitted value, the content of a file in hexadecimal digits. -/
def FormValue.dump : FormValue → String
  | text t => quote t
  | file f =>
    record [("name", quote f.name), ("mime_type", quote f.mimeType), ("size", toString f.size.toNat),
      ("last_modified", toString f.lastModified.toNat),
      ("content", quote (Text.hexOfBytes f.content))]

/-- The fields of a form, as pairs. -/
def FieldMap.dump (m : FieldMap) : String :=
  list (m.fields.map fun (name, vs) => list [quote name, list (vs.map (·.dump))])

/-- What a node is. -/
def NodeData.toJson : NodeData → String
  | document => record [("type", quote "document")]
  | text t => record [("type", quote "text"), ("text", quote t)]
  | comment t => record [("type", quote "comment"), ("text", quote t)]
  | element e =>
    record [("type", quote "element"), ("tag", quote e.qualifiedName), ("local", quote e.localName),
      ("ns", optional quote e.ns), ("kind", quote e.kind.name),
      ("attrs", list (e.attributes.map fun a =>
        list [quote a.qualifiedName, quote a.localName, optional quote a.ns, quote a.value])),
      ("style", list (e.style.map fun (p, v) => list [quote p, quote v])),
      ("control", list [optional quote e.control.value, optional boolean e.control.checked,
        optional boolean e.control.selected, toString e.control.files.length])]

/-- A node and all below it in pre-order, each with its links and data. -/
def Store.dump (s : Store) (r : NodeRef) : String :=
  list ((s.descendants r).map fun n =>
    let link (t : Option NodeRef) : String := optional NodeRef.toJson t
    record [("n", n.toJson),
      ("links", list [link (s.parent? n), link (s.firstChild? n), link (s.lastChild? n),
        link (s.previousSibling? n), link (s.nextSibling? n)]),
      ("data", optional NodeData.toJson (s.get? n))])

end DomHost
