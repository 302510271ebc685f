import DomHost.Host.Basic

/-!
# Catching events

Instead of a listener on every node, one listener for each name on a common ancestor catches the events
for the compute module. Events that do not bubble are caught on the way down.

* `Host.installDelegation`: moving the listeners to a node;
* `Host.start`: the first bindings, and the listeners.
-/

namespace DomHost.Host

/-- The listener that catches the events of a name. -/
def delegateListener (name : String) : Listener :=
  ⟨name, delegateHandler, { capture := !bubblesByName name }⟩

/-- Removes the listeners from the node they are on. The node is forgotten first, also when that fails. -/
def uninstallDelegation : HostM Unit := do
  match (← get).delegation.scope with
  | none => pure ()
  | some scope =>
    modify fun h => { h with delegation := { h.delegation with scope := none } }
    delegatedNames.forM fun name => do
      let l := delegateListener name
      discard (Document.removeListener scope l.type l.handler l.options.capture : DocumentM Bool)
    modify fun h => { h with delegation := { h.delegation with installed := 0 } }

/-- Adds the listeners to a node, and tells how many it did not have. -/
def addDelegates (scope : NodeRef) : HostM Nat :=
  delegatedNames.foldlM (fun n name => do
    let added ← (Document.addListener scope (delegateListener name) : DocumentM Bool)
    pure (if added then n + 1 else n)) 0

/-- Moves the listeners to a node. -/
def installDelegation (scope : NodeRef) : HostM Unit := do
  uninstallDelegation
  let installed ← addDelegates scope
  modify fun h => { h with delegation := ⟨some scope, installed⟩ }

/-- Ties the ids of a list to the elements with the given `id` attributes. -/
def tieElements : List (NodeId × String) → SceneM Reaction Unit
  | [] => pure ()
  | (id, domId) :: rest => do
    match (← get).document.elementById? domId with
    | some r => Scene.tie id r
    | none => throw (.document (.idNotFound domId))
    tieElements rest

/-- Ties the first id to a live node and further ids to elements, and catches the events of the node. -/
def start (root : NodeRef) (elements : List (NodeId × String)) : HostM Unit := do
  discard (Store.require root : DocumentM NodeData)
  onScene (Scene.tie .root root)
  onScene (tieElements elements)
  if (← get).delegates then installDelegation root

end DomHost.Host
