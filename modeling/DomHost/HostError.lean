import DomHost.Callback
import DomHost.DomError
import DomHost.Edit.Decode
import DomHost.Template

/-!
# Faults of the host

Whatever a call of the host can fail with, by the part that reports it.

* `HostError`: the faults;
* `HostError.isProtocol`: whether the stream of instructions is to blame.
-/

namespace DomHost

/-- A fault of a call. -/
inductive HostError where
  | protocol (fault : DecodeError)
  | lookup (fault : NotBound)
  | document (fault : DomError)
  | template (fault : TemplateError)
  | memory (fault : MemoryError)
  | callback (fault : CallbackError)
deriving DecidableEq

namespace HostError

/-- The name of a fault, behind the part that reports it. -/
def name : HostError → String
  | protocol e => "Protocol." ++ e.name
  | lookup _ => "Lookup.NotFound"
  | document e => "Host." ++ e.name
  | template e => "Template." ++ e.name
  | memory e => "Memory." ++ e.name
  | callback e => "Callback." ++ e.name

/-- The text of a fault. -/
def message : HostError → String
  | protocol e => "protocol error: " ++ e.message
  | lookup e => "lookup error: " ++ e.message
  | document e => "host error: " ++ e.message
  | template e => "template error: " ++ e.message
  | memory e => "memory error: " ++ e.message
  | callback e => "callback error: " ++ e.message

/-- Is the stream of instructions itself at fault? -/
def isProtocol : HostError → Bool
  | protocol _ | lookup _ => true
  | _ => false

end HostError

end DomHost
