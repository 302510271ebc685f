import DomHost.Document.Basic
import DomHost.HostError

/-!
# Scenes

What instructions work on: the document, the ids of its nodes, the templates and the closures that
listeners call.

* `Scene`, `SceneM`: scenes and operations on them; a fault keeps what was done before it;
* `Scene.node`, `Scene.nodes`: the nodes that ids are bound to;
* `Scene.newElement`, `Scene.writeAttribute`: what instructions and templates share.
-/

namespace DomHost

/-- What instructions work on. The closures are of any type `κ`. -/
structure Scene (κ : Type) where
  document : Document
  bindings : Bindings := {}
  templates : Templates := {}
  callbacks : CallbackTable κ := {}

/-- An operation on a scene that may fail; what it did before failing stays done. -/
abbrev SceneM (κ : Type) := EStateM HostError (Scene κ)

namespace Scene

variable {κ α : Type}

/-- An operation on the document, as one on the scene. -/
def onDocument (x : DocumentM α) : SceneM κ α := fun s =>
  match x s.document with
  | .ok a d => .ok a { s with document := d }
  | .error e d => .error (.document e) { s with document := d }

instance : MonadLift DocumentM (SceneM κ) := ⟨onDocument⟩

/-- The nodes of the document. -/
def store (s : Scene κ) : Store := s.document.store

/-- The node bound to an id, which has to be there. -/
def node (id : NodeId) : SceneM κ NodeRef := do
  match (← get).bindings.get? id with
  | some r => pure r
  | none => throw (.lookup ⟨id⟩)

/-- The nodes bound to ids, all of which have to be there. -/
def nodes (ids : List NodeId) : SceneM κ (List NodeRef) := ids.mapM node

/-- Ties an id to a node. -/
def tie (id : NodeId) (r : NodeRef) : SceneM κ Unit :=
  modify fun s => { s with bindings := s.bindings.bind id r }

/-- Creates an element; without a namespace its tag has to be a name. -/
def newElement (tag : String) (ns : Option String) : SceneM κ NodeRef := do
  match ns with
  | some _ => Store.createElementNs ns tag
  | none =>
    onDocument (liftResult (validateName tag))
    Store.createElement tag

/-- Sets an attribute, in a namespace or without. -/
def writeAttribute (r : NodeRef) (name value : String) (ns : Option String) : SceneM κ Unit :=
  match ns with
  | some _ => Store.setAttributeNs r ns name value
  | none => Store.setAttribute r name value

end Scene

end DomHost
