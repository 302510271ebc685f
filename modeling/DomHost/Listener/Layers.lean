import DomHost.Listener
import Std.Data.HashMap

/-!
# Listeners in layers

A registry that is kept in two layers of tables: the types with listeners of each node, and the listeners of each type.
A layer is made when something is put into it, and taken away with the last thing in it. The order of a table means
nothing, so listeners of several types are sorted by type when they are listed together.

* `Layers`: the tables;
* `Layers.add`, `Layers.remove`, `Layers.takeAll`: the edits;
* `Layers.listenersFor`, `Layers.hasAny`, `Layers.len`, `Layers.isEmpty`: reading the tables.
-/

namespace DomHost

deriving instance Hashable for NodeRef

/-- What is kept of a listener under its node and its type. -/
structure LayeredListener where
  handler : HandlerId
  options : ListenerOptions
deriving DecidableEq

/-- The listener for an event type. -/
def LayeredListener.withType (type : String) (l : LayeredListener) : Listener := ⟨type, l.handler, l.options⟩

/-- Is this the listener for a handler and phase? -/
def LayeredListener.hasKey (l : LayeredListener) (handler : HandlerId) (capture : Bool) : Bool :=
  l.handler == handler && l.options.capture == capture

/-- The listeners of a node, by type. -/
abbrev Layer := Std.HashMap String (List LayeredListener)

/-- The listeners by node and by type. -/
structure Layers where
  nodes : Std.HashMap NodeRef Layer := ∅

namespace Layers

/-- Adds a listener, unless the node has one with the same type, handler and phase. The layers for it are made
before that is looked at. -/
def add (t : Layers) (node : NodeRef) (l : Listener) : Bool × Layers :=
  let types := t.nodes.getD node ∅
  let old := types.getD l.type []
  if old.any (·.hasKey l.handler l.options.capture) then (false, ⟨t.nodes.insert node (types.insert l.type old)⟩)
  else (true, ⟨t.nodes.insert node (types.insert l.type (old ++ [⟨l.handler, l.options⟩]))⟩)

/-- Writes an entry of a table, or takes it away if it is left with nothing in it. -/
def write {κ ν : Type} [BEq κ] [Hashable κ] (m : Std.HashMap κ ν) (k : κ) (v : ν) (empty : Bool) : Std.HashMap κ ν :=
  if empty then m.erase k else m.insert k v

/-- Puts the listeners of a node for an event type in place of those it had. -/
def put (t : Layers) (node : NodeRef) (types : Layer) (type : String) (kept : List LayeredListener) : Layers :=
  let types := write types type kept kept.isEmpty
  ⟨write t.nodes node types types.isEmpty⟩

/-- Removes the listener with a type, handler and phase; tells whether there was one. -/
def remove (t : Layers) (node : NodeRef) (type : String) (handler : HandlerId) (capture : Bool) : Bool × Layers :=
  match t.nodes[node]? with
  | none => (false, t)
  | some types =>
    match types[type]? with
    | none => (false, t)
    | some old =>
      let kept := old.filter fun l => !l.hasKey handler capture
      (decide (kept.length < old.length), t.put node types type kept)

/-- The listeners of a node for an event type, oldest first. -/
def listenersFor (t : Layers) (node : NodeRef) (type : String) : List Listener :=
  ((t.nodes[node]?.bind (·[type]?)).getD []).map (·.withType type)

/-- Does the node have a listener? -/
def hasAny (t : Layers) (node : NodeRef) : Bool := t.nodes.contains node

/-- Removes all listeners of a node, and lists them by type; for one type, oldest first. -/
def takeAll (t : Layers) (node : NodeRef) : List Listener × Layers :=
  match t.nodes[node]? with
  | none => ([], t)
  | some types =>
    let taken := types.toList.flatMap fun (type, ls) => ls.map (·.withType type)
    (taken.mergeSort fun a b => !decide (b.type < a.type), ⟨t.nodes.erase node⟩)

/-- The number of listeners of all nodes. -/
def len (t : Layers) : Nat := t.nodes.fold (fun n _ types => types.fold (fun n _ ls => n + ls.length) n) 0

/-- Has no node a listener? -/
def isEmpty (t : Layers) : Bool := t.nodes.isEmpty

end Layers

end DomHost
