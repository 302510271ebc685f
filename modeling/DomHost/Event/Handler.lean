import DomHost.Binding
import DomHost.Document.Basic
import DomHost.Edit.Instruction

/-!
# Who a listener belongs to

The highest bit of a handler tells the listeners that catch events for the whole document from those
that call a closure.

* `Handler`, `Handler.ofId`: the two kinds of listeners;
* `delegateHandler`: the handler of the first kind;
* `Document.boundTarget?`: the id that an event is for.
-/

namespace DomHost

/-- The handler of the listeners that catch events for the whole document. -/
def delegateHandler : HandlerId := ⟨9223372036854775808⟩

/-- Who a listener belongs to. -/
inductive Handler where
  | delegate
  | callback (id : CallbackId)
deriving DecidableEq

/-- Who a listener with a handler belongs to. -/
def Handler.ofId (h : HandlerId) : Handler :=
  if h.number &&& delegateHandler.number = 0 then .callback ⟨h.number.toUInt32⟩ else .delegate

/-- The id of the nearest node at or above a target that has one. -/
def Document.boundTarget? (d : Document) (b : Bindings) (target : NodeRef) : Option NodeId :=
  (d.store.ancestors target).findSome? b.idOf?

end DomHost
