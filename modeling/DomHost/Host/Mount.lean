import DomHost.Host.Config
import DomHost.Host.Delegation
import DomHost.Text.Quoted

/-!
# Mounting

A host is made for a document according to settings, and renders into the element that they name.

* `Host.mount`, `Host.mountHtml`: a host for a document, or for the text of one;
* `MountError`: the faults.
-/

namespace DomHost

/-- A fault met in mounting. -/
inductive MountError where
  | parse (fault : DomError)
  | config (fault : ConfigError)
  | rootNotFound (id : String)
  | host (fault : HostError)
deriving DecidableEq

/-- The name of a fault. -/
def MountError.name : MountError → String
  | parse _ => "Parse"
  | config e => "Config." ++ e.name
  | rootNotFound _ => "RootNotFound"
  | host e => "Bridge." ++ e.name

/-- The text of a fault. -/
def MountError.message : MountError → String
  | parse e => "Parse error: " ++ e.markupMessage
  | config e => "Invalid configuration: " ++ e.message
  | rootNotFound id => "No element with id " ++ Text.quoted id ++ " to mount on"
  | host e => "Bridge error: " ++ e.message

namespace Host

/-- A host for a document. -/
def mount (config : Config) (document : Document) : Except MountError Host := do
  config.validate.mapError .config
  match document.elementById? config.rootElementId with
  | none => throw (.rootNotFound config.rootElementId)
  | some root =>
    let host := new document (.new config.initialMemoryPages config.maxMemoryPages)
    match start root [] (if config.installDelegation then host else host.withoutDelegation) with
    | .ok _ host => pure host
    | .error e _ => throw (.host e)

/-- A host for the text of a document. -/
def mountHtml (config : Config) (html : String) : Except MountError Host := do
  mount config (← (Document.ofHtml html).mapError .parse)

end Host

end DomHost
