import DomHost.Edit.Execute
import DomHost.Event.Record
import DomHost.Memory.View
import DomHost.Timer

/-!
# Hosts

A host holds everything around one document: the shared buffer that instructions come through, the ids,
templates and closures they use, the listeners that catch events for the compute module, and the
timers. It keeps a record of what it told the compute module.

* `Host`, `HostM`: hosts and their operations; a fault keeps what was done before it;
* `Reaction`: what the compute module, or a closure of it, asks for when an event comes;
* `Notice`: what the compute module was told;
* `Host.new`, `Host.withoutDelegation`: a host for a document.
-/

namespace DomHost

/-- What is asked for when an event comes. -/
abbrev Reaction := EventRecord → EventControl

/-- What the compute module was told, with what it asked for. -/
inductive Notice where
  | event (record : EventRecord) (control : EventControl)
  | callback (id : CallbackId) (record : EventRecord) (control : EventControl)
  | released (id : CallbackId)
  | timer (token : TimerToken)

/-- The listeners that catch events for the compute module: the node they are on, and their number. -/
structure Delegation where
  scope : Option NodeRef := none
  installed : Nat := 0
deriving DecidableEq

/-- A host. -/
structure Host where
  scene : Scene Reaction
  memory : MemoryBridge
  delegation : Delegation := {}
  timers : TimerQueue := {}
  lastError : Option HostError := none
  /-- Are events to be caught for the compute module? -/
  delegates : Bool := true
  /-- What the compute module was told, in order. -/
  notices : List Notice := []

/-- An operation on a host that may fail; what it did before failing stays done. -/
abbrev HostM := EStateM HostError Host

namespace Host

/-- A host for a document. -/
def new (document : Document) (buffer : SharedBuffer) : Host :=
  { scene := { document }, memory := { buffer } }

/-- A host that catches no events for the compute module. -/
def withoutDelegation (h : Host) : Host := { h with delegates := false }

/-- An operation on the scene, as one on the host. -/
def onScene {α : Type} (x : SceneM Reaction α) : HostM α := fun h =>
  match x h.scene with
  | .ok a s => .ok a { h with scene := s }
  | .error e s => .error e { h with scene := s }

instance : MonadLift (SceneM Reaction) HostM := ⟨onScene⟩

/-- The document. -/
def document (h : Host) : Document := h.scene.document

/-- The node bound to an id. -/
def node (h : Host) (id : NodeId) : Except HostError NodeRef :=
  match h.scene.bindings.get? id with
  | some r => .ok r
  | none => .error (.lookup ⟨id⟩)

/-- Tells the compute module something. -/
def tell (notices : List Notice) : HostM Unit :=
  modify fun h => { h with notices := h.notices ++ notices }

/-- Tells the compute module which closures were released since it was told last. -/
def reportReleased : HostM Unit :=
  modify fun h =>
    let (ids, callbacks) := h.scene.callbacks.takeReleased
    { h with scene := { h.scene with callbacks }, notices := h.notices ++ ids.map .released }

end Host

end DomHost
