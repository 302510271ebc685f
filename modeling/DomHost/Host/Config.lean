import DomHost.Event.RecordJson

/-!
# Settings

The settings of a host, as a JSON object in which any of them may be left out.

* `Config`: the settings with their defaults;
* `Config.validate`: the settings that a host cannot follow;
* `Config.toJson`, `Config.ofJson?`: settings as text.
-/

namespace DomHost

open Json (quote record boolean)

/-- The settings of a host: the `id` of the element to mount on, the pages of the shared buffer at the
start and at most, the filter of the log, and whether events are caught for the compute module. -/
structure Config where
  rootElementId : String := "main"
  initialMemoryPages : Nat := 1
  maxMemoryPages : Nat := 256
  logFilter : String := "warn"
  installDelegation : Bool := true
deriving DecidableEq

/-- A fault of settings. -/
inductive ConfigError where
  | emptyRootId
  | memoryPages (initial limit : Nat)
deriving DecidableEq

/-- The name of a fault. -/
def ConfigError.name : ConfigError → String
  | emptyRootId => "EmptyRootId"
  | memoryPages .. => "MemoryPages"

/-- The text of a fault. -/
def ConfigError.message : ConfigError → String
  | emptyRootId => "root_element_id must not be empty"
  | memoryPages initial limit =>
    "initial_memory_pages (" ++ toString initial ++ ") exceeds max_memory_pages (" ++
      toString limit ++ ")"

namespace Config

/-- Refuses settings that a host cannot follow. -/
def validate (c : Config) : Except ConfigError Unit :=
  if c.rootElementId.isEmpty then .error .emptyRootId
  else if c.maxMemoryPages < c.initialMemoryPages then
    .error (.memoryPages c.initialMemoryPages c.maxMemoryPages)
  else .ok ()

/-- Settings as an object with all members. -/
def toJson (c : Config) : String :=
  record [("root_element_id", quote c.rootElementId),
    ("initial_memory_pages", toString c.initialMemoryPages),
    ("max_memory_pages", toString c.maxMemoryPages), ("log_filter", quote c.logFilter),
    ("install_delegation", boolean c.installDelegation)]

/-- A member, or its default when it is left out. -/
def orDefault {α : Type} (read : Json → Option α) (default : α) : Option Json → Option α
  | some v => read v
  | none => some default

/-- Reads settings; unknown members are ignored, and known ones may not be repeated. -/
def ofValue? (v : Json) : Option Config := do
  match v with
  | .object members => guard (members.all (·.1.isSome))
  | _ => pure ()
  let names := ["root_element_id", "initial_memory_pages", "max_memory_pages", "log_filter",
    "install_delegation"]
  let base : Config := {}
  match ← v.fields? (names.map (·, false)) with
  | [root, initial, limit, filter, delegation] =>
    some ⟨← orDefault Json.text? base.rootElementId root,
      ← orDefault (Json.word? 64) base.initialMemoryPages initial,
      ← orDefault (Json.word? 64) base.maxMemoryPages limit,
      ← orDefault Json.text? base.logFilter filter,
      ← orDefault Json.bool? base.installDelegation delegation⟩
  | _ => none

/-- Reads the text of settings. -/
def ofJson? (text : String) : Option Config := (Json.parse? text).bind ofValue?

end Config

end DomHost
