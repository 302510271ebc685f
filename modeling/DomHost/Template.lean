import DomHost.Edit.Instruction

/-!
# Templates

A template is a tree that is built once, kept detached and copied every time it is used. It remembers
the descriptors it was built from and the ways from its root to the nodes that get an id in a copy.

* `Template`, `Templates`: templates by number;
* `TemplateError`: the faults.
-/

namespace DomHost

/-- A fault of a template operation. -/
inductive TemplateError where
  | unknown (template : UInt32)
  | rootCount (found : Nat)
  | malformed (index : Nat)
  | slotCount (template : UInt32) (expected found : Nat)
deriving DecidableEq

/-- The name of a fault. -/
def TemplateError.name : TemplateError → String
  | unknown _ => "Unknown"
  | rootCount _ => "RootCount"
  | malformed _ => "Malformed"
  | slotCount .. => "SlotCount"

/-- The text of a fault. -/
def TemplateError.message : TemplateError → String
  | unknown t => "template " ++ toString t.toNat ++ " is not defined"
  | rootCount n => "template must have exactly one root, found " ++ toString n
  | malformed i =>
    "descriptor list ends at " ++ toString i ++ " while children are still expected"
  | slotCount t expected found =>
    "template " ++ toString t.toNat ++ " has " ++ toString expected ++ " slots but " ++
      toString found ++ " ids were supplied"

/-- A template: the descriptors it was built from, its root, and the ways from the root to the nodes
that get an id, each by child indices, in pre-order. -/
structure Template where
  descriptors : List Descriptor
  root : NodeRef
  slots : List (List Nat)
deriving DecidableEq

/-- Templates by number, each number once. -/
structure Templates where
  entries : List (UInt32 × Template) := []
deriving DecidableEq

namespace Templates

/-- The template with a number. -/
def get? (ts : Templates) (number : UInt32) : Option Template := ts.entries.lookup number

/-- Is there a template with the number? -/
def contains (ts : Templates) (number : UInt32) : Bool := (ts.get? number).isSome

/-- The number of templates. -/
def len (ts : Templates) : Nat := ts.entries.length

/-- Puts a template under a number. -/
def put (ts : Templates) (number : UInt32) (t : Template) : Templates :=
  ⟨(number, t) :: ts.entries.filter (·.1 != number)⟩

end Templates

end DomHost
