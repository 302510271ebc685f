import DomHost.Edit.Instruction

/-!
# Callbacks

Closures of the compute module that listeners call. A closure waits until the first listener uses it,
is counted while listeners do, and is released with the last of them. Disposing of a closure that is
in use only keeps new listeners away from it.

* `CallbackTable.register`, `attach`, `detach`, `dispose`: the life of a closure;
* `CallbackHandle.enter`: running a closure, which may not be running already;
* `CallbackTable.takeReleased`: the ids that were released and not yet reported.
-/

namespace DomHost

/-- A fault of a callback operation. -/
inductive CallbackError where
  | unknown (id : CallbackId)
  | alreadyRegistered (id : CallbackId)
  | disposed (id : CallbackId)
  | reentrant (id : CallbackId)
deriving DecidableEq

/-- The name of a fault. -/
def CallbackError.name : CallbackError → String
  | unknown _ => "Unknown"
  | alreadyRegistered _ => "AlreadyRegistered"
  | disposed _ => "Disposed"
  | reentrant _ => "Reentrant"

/-- The text of a fault. -/
def CallbackError.message : CallbackError → String
  | unknown id => "callback " ++ id.describe ++ " is not registered"
  | alreadyRegistered id => "callback " ++ id.describe ++ " is already registered"
  | disposed id => "callback " ++ id.describe ++ " has been disposed"
  | reentrant id => "callback " ++ id.describe ++ " invoked while already running"

/-- A closure in use, with the number of listeners that use it. Without listeners the closure is
gone. -/
structure CallbackHandle (α : Type) where
  id : CallbackId
  count : Nat
  closure : Option α
  /-- Is it to be released with its last listener and to have no new one? -/
  doomed : Bool := false
  running : Bool := false

namespace CallbackHandle

variable {α : Type}

/-- Is the closure gone? -/
def isDisposed (h : CallbackHandle α) : Bool := h.closure.isNone

/-- One listener fewer; with the last one goes the closure. -/
def drop (h : CallbackHandle α) : CallbackHandle α :=
  let count := h.count - 1
  { h with count, closure := if count = 0 then none else h.closure }

/-- The closure, to be run, and the handle while it is running. -/
def enter (h : CallbackHandle α) : Except CallbackError (α × CallbackHandle α) :=
  if h.running then .error (.reentrant h.id)
  else
    match h.closure with
    | some f => .ok (f, { h with running := true })
    | none => .error (.disposed h.id)

end CallbackHandle

/-- The closures that wait for a listener, those in use, and the ids released since the last report. -/
structure CallbackTable (α : Type) where
  pending : List (CallbackId × α) := []
  live : List (CallbackHandle α) := []
  released : List CallbackId := []

namespace CallbackTable

variable {α : Type}

/-- The closure that waits under an id. -/
def pending? (t : CallbackTable α) (id : CallbackId) : Option α :=
  (t.pending.find? (·.1 == id)).map (·.2)

/-- The closure in use under an id. -/
def live? (t : CallbackTable α) (id : CallbackId) : Option (CallbackHandle α) :=
  t.live.find? (·.id == id)

/-- Is there a closure under the id? -/
def contains (t : CallbackTable α) (id : CallbackId) : Bool :=
  (t.pending? id).isSome || (t.live? id).isSome

/-- The number of listeners that use an id. -/
def count (t : CallbackTable α) (id : CallbackId) : Nat := ((t.live? id).map (·.count)).getD 0

/-- Replaces the handle of an id. -/
def setLive (t : CallbackTable α) (h : CallbackHandle α) : CallbackTable α :=
  { t with live := t.live.map fun old => if old.id = h.id then h else old }

/-- Takes a closure under an id that has none. -/
def register (t : CallbackTable α) (id : CallbackId) (closure : α) :
    Except CallbackError (CallbackTable α) :=
  if t.contains id then .error (.alreadyRegistered id)
  else .ok { t with pending := (id, closure) :: t.pending }

/-- May a new listener use the id? -/
def checkAttachable (t : CallbackTable α) (id : CallbackId) : Except CallbackError Unit :=
  match t.live? id with
  | some h => if h.doomed then .error (.disposed id) else .ok ()
  | none => if (t.pending? id).isSome then .ok () else .error (.unknown id)

/-- One more listener uses an id. -/
def attach (t : CallbackTable α) (id : CallbackId) :
    Except CallbackError (CallbackHandle α × CallbackTable α) :=
  match t.live? id with
  | some h =>
    if h.doomed then .error (.disposed id)
    else
      let h := { h with count := h.count + 1 }
      .ok (h, t.setLive h)
  | none =>
    match t.pending? id with
    | some closure =>
      let h : CallbackHandle α := { id, count := 1, closure := some closure }
      .ok (h, { t with pending := t.pending.filter (·.1 != id), live := h :: t.live })
    | none => .error (.unknown id)

/-- One listener fewer uses an id; with the last one it is released. Tells the handle after that. -/
def detach (t : CallbackTable α) (id : CallbackId) :
    Except CallbackError (CallbackHandle α × CallbackTable α) :=
  match t.live? id with
  | none => .error (.unknown id)
  | some h =>
    let h := h.drop
    if h.count = 0 then
      .ok (h, { t with live := t.live.filter (·.id != id), released := t.released ++ [id] })
    else .ok (h, t.setLive h)

/-- Gives up an id: a closure that waits is released, and one in use is doomed. Tells whether it was
released. -/
def dispose (t : CallbackTable α) (id : CallbackId) :
    Except CallbackError (Bool × CallbackTable α) :=
  if (t.pending? id).isSome then
    .ok (true,
      { t with pending := t.pending.filter (·.1 != id), released := t.released ++ [id] })
  else
    match t.live? id with
    | some h => .ok (false, t.setLive { h with doomed := true })
    | none => .error (.unknown id)

/-- The closure in use under an id, to be run, and the table while it is running. -/
def enter (t : CallbackTable α) (id : CallbackId) : Except CallbackError (α × CallbackTable α) :=
  match t.live? id with
  | none => .error (.disposed id)
  | some h => do
    let (f, h) ← h.enter
    pure (f, t.setLive h)

/-- The table after the closure under an id has run. -/
def leave (t : CallbackTable α) (id : CallbackId) : CallbackTable α :=
  match t.live? id with
  | some h => t.setLive { h with running := false }
  | none => t

/-- The ids released since the last report, in order. -/
def takeReleased (t : CallbackTable α) : List CallbackId × CallbackTable α :=
  (t.released, { t with released := [] })

end CallbackTable

end DomHost
