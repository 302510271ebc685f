import DomHost.Document.Dispatch
import DomHost.Host.Basic

/-!
# Calls between the host and the compute module

* `Host.createNode`, `setNode`, `saveTemplate`, `formData`: calls on nodes and templates;
* `Host.applyEdits`, `takeLastError`: a stream of instructions, and its fault;
* `Host.registerCallback`, `disposeCallback`: the life of a closure;
* `Host.setTimeout`, `setInterval`, `clearTimer`, `runTimers`: timers;
* `Host.dispatch`: an event.
-/

namespace DomHost.Host

/-! ## Nodes -/

/-- Creates a node without content for an id. What the id was tied to before stays. -/
def createNode (id : NodeId) : HostM NodeRef := do
  let r ← (Store.createComment placeholderText : DocumentM NodeRef)
  onScene (Scene.tie id r)
  pure r

/-- Ties an id to a live node. -/
def setNode (id : NodeId) (r : NodeRef) : HostM Unit := do
  discard (Store.require r : DocumentM NodeData)
  onScene (Scene.tie id r)

/-- Defines a template. -/
def saveTemplate (number : UInt32) (descriptors : List Descriptor) : HostM Unit :=
  onScene (Scene.saveTemplate number descriptors)

/-- The fields of the form bound to an id. -/
def formData (h : Host) (form : NodeId) : Except HostError FieldMap := do
  let r ← h.node form
  (h.document.fieldMap r).mapError .document

/-! ## Instructions -/

/-- Turns to another shared buffer. -/
def updateMemory (buffer : SharedBuffer) : HostM Unit :=
  modify fun h => { h with memory := h.memory.replaceBuffer buffer }

/-- Takes a view of the buffer, unless a window is empty. -/
def look (h : Host) (c : Cursor) : Host := if c.atEnd then h else { h with memory := h.memory.observe }

/-- The outcome of an operation, which does not fail on its part. -/
def attempt {α : Type} (x : HostM α) : HostM (Except HostError α) := fun h =>
  match x h with
  | .ok a h => .ok (.ok a) h
  | .error e h => .ok (.error e) h

/-- Carries out the instructions in a window of the shared buffer, and tells how many there were. A
fault is kept until it is taken. -/
def applyEdits (offset len : Nat) : HostM Nat := do
  let c := Cursor.new (← get).memory.buffer offset len
  modify (·.look c)
  let result ← attempt (onScene (Scene.run c))
  reportReleased
  match result with
  | .ok n => pure n
  | .error e => do
    modify fun h => { h with lastError := some e }
    throw e

/-- Takes the fault of the last stream of instructions that had one. -/
def takeLastError : HostM (Option HostError) :=
  modifyGet fun h => (h.lastError, { h with lastError := none })

/-! ## Closures -/

/-- Replaces the closures, or keeps the fault. -/
def withCallbacks {α : Type}
    (f : CallbackTable Reaction → Except CallbackError (α × CallbackTable Reaction)) : HostM α := do
  match f (← get).scene.callbacks with
  | .ok (a, callbacks) =>
    modify fun h => { h with scene := { h.scene with callbacks } }
    pure a
  | .error e => throw (.callback e)

/-- Takes a closure. -/
def registerCallback (id : CallbackId) (closure : Reaction) : HostM Unit :=
  withCallbacks fun t => (t.register id closure).map fun t => ((), t)

/-- Gives up a closure; tells whether it was released right away. -/
def disposeCallback (id : CallbackId) : HostM Bool := do
  let released ← withCallbacks (·.dispose id)
  reportReleased
  pure released

/-! ## Timers -/

/-- Changes the timers. -/
def withTimers {α : Type} (f : TimerQueue → α × TimerQueue) : HostM α :=
  modifyGet fun h =>
    let (a, timers) := f h.timers
    (a, { h with timers })

/-- Comes due once, after a delay. -/
def setTimeout (delay : Instant) : HostM TimerToken := withTimers (·.setTimeout delay)

/-- Comes due every period. -/
def setInterval (period : Instant) : HostM TimerToken := withTimers (·.setInterval period)

/-- Drops a timer; tells whether it was pending. -/
def clearTimer (token : TimerToken) : HostM Bool := withTimers (·.clear token)

/-- Moves the clock, and tells how many timers came due. -/
def runTimers (now : Instant) : HostM Nat := do
  let due ← withTimers (·.advance now)
  tell (due.map .timer)
  pure due.length

/-! ## Events -/

/-- The id that an event is for when a listener is called. A closure may also be told of the node it
listens on. -/
def targetOf (s : Scene Reaction) (d : Document) (handler : Handler) (e : NativeEvent) :
    Option NodeId :=
  let bound := d.boundTarget? s.bindings e.target
  match handler with
  | .delegate => bound
  | .callback _ => bound.or (s.bindings.idOf? e.currentTarget)

/-- Calls the compute module or a closure for an event. Nothing is called for an event of nodes
without ids, and a closure that is gone is passed over. -/
def react (compute : Reaction) (s : Scene Reaction) : Document.Invoke (List Notice) :=
  fun d id e told =>
    let handler := Handler.ofId id
    match targetOf s d handler e with
    | none => ({}, told)
    | some target =>
      let record := EventRecord.ofEvent d e target
      match handler with
      | .delegate => (compute record, told ++ [.event record (compute record)])
      | .callback id =>
        match s.callbacks.enter id with
        | .ok (closure, _) => (closure record, told ++ [.callback id record (closure record)])
        | .error _ => ({}, told)

/-- Delivers an event; tells whether its default action goes ahead. -/
def dispatch (compute : Reaction) (event : NativeEvent) : HostM Bool := do
  let h ← get
  match Document.dispatch (react compute h.scene) ⟨h.document, event, []⟩ with
  | .ok (proceed, v) =>
    set { h with scene := { h.scene with document := v.document } }
    tell v.caller
    pure proceed
  | .error e => throw (.document e)

end DomHost.Host
