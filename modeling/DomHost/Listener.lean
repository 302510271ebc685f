import DomHost.Node.Ref

/-!
# Event listeners

A registry keeps the listeners of each node, in the order in which they were added. A node has at
most one listener for a given event type, handler and phase.

* `Registry.add`, `Registry.remove`, `Registry.takeAll`: the edits;
* `Registry.listenersFor`, `Registry.hasAny`, `Registry.len`: reading the registry.
-/

namespace DomHost

/-- The number by which a listener is told apart from others; who added it gives it a meaning. -/
structure HandlerId where
  number : UInt64
deriving DecidableEq, Inhabited

/-- How a listener is added. -/
structure ListenerOptions where
  capture : Bool := false
  passive : Bool := false
  once : Bool := false
deriving DecidableEq

/-- A listener of a node for one type of event. -/
structure Listener where
  type : String
  handler : HandlerId
  options : ListenerOptions
deriving DecidableEq

/-- Is this the listener for an event type, handler and phase? -/
def Listener.hasKey (l : Listener) (type : String) (handler : HandlerId) (capture : Bool) : Bool :=
  l.type == type && l.handler == handler && l.options.capture == capture

/-- The listeners of each node that has some. -/
structure Registry where
  entries : List (NodeRef × List Listener) := []
deriving DecidableEq

namespace Registry

/-- All listeners of a node. -/
def ofNode (g : Registry) (node : NodeRef) : List Listener := (g.entries.lookup node).getD []

/-- The listeners of a node for an event type, oldest first. -/
def listenersFor (g : Registry) (node : NodeRef) (type : String) : List Listener :=
  (g.ofNode node).filter (·.type == type)

/-- Does the node have a listener? -/
def hasAny (g : Registry) (node : NodeRef) : Bool := (g.entries.lookup node).isSome

/-- The number of listeners of all nodes. -/
def len (g : Registry) : Nat := (g.entries.flatMap (·.2)).length

/-- Has no node a listener? -/
def isEmpty (g : Registry) : Bool := g.entries.isEmpty

/-- Puts the listeners of a node in place of those it had; a node without listeners has no entry. -/
def put (node : NodeRef) (ls : List Listener) :
    List (NodeRef × List Listener) → List (NodeRef × List Listener)
  | [] => if ls.isEmpty then [] else [(node, ls)]
  | (n, old) :: rest =>
    if n = node then if ls.isEmpty then rest else (n, ls) :: rest else (n, old) :: put node ls rest

/-- Adds a listener, unless the node has one with the same type, handler and phase. -/
def add (g : Registry) (node : NodeRef) (l : Listener) : Bool × Registry :=
  let old := g.ofNode node
  if old.any (·.hasKey l.type l.handler l.options.capture) then (false, g)
  else (true, ⟨put node (old ++ [l]) g.entries⟩)

/-- Removes the listener with a type, handler and phase; tells whether there was one. -/
def remove (g : Registry) (node : NodeRef) (type : String) (handler : HandlerId) (capture : Bool) :
    Bool × Registry :=
  let old := g.ofNode node
  if old.any (·.hasKey type handler capture) then
    (true, ⟨put node (old.filter fun l => !l.hasKey type handler capture) g.entries⟩)
  else (false, g)

/-- Removes all listeners of a node, and lists them by type; for one type, oldest first. -/
def takeAll (g : Registry) (node : NodeRef) : List Listener × Registry :=
  ((g.ofNode node).mergeSort fun a b => !decide (b.type < a.type), ⟨put node [] g.entries⟩)

end Registry

end DomHost
