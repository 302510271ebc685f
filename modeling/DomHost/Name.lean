import DomHost.DomError

/-!
# Names

A name starts with a letter, an underscore, a colon or a character outside ASCII, and goes on with
those, digits, hyphens and full stops. A qualified name has at most one colon, between two parts that
are not empty, and has to agree with its namespace.

* `isName`, `validateName`: the names;
* `QualifiedName`, `QualifiedName.extract`: the parts of a qualified name in a namespace.
-/

namespace DomHost

/-- The namespace of SVG elements. -/
def svgNs : String := "http://www.w3.org/2000/svg"

/-- The namespace of the qualifier `xml`. -/
def xmlNs : String := "http://www.w3.org/XML/1998/namespace"

/-- The namespace of namespace declarations. -/
def xmlnsNs : String := "http://www.w3.org/2000/xmlns/"

/-- May a name start with this character? -/
def isNameStart (c : Char) : Bool := c.isAlpha || c == '_' || c == ':' || 128 ≤ c.toNat

/-- May a name go on with this character? -/
def isNameChar (c : Char) : Bool := isNameStart c || c.isDigit || c == '-' || c == '.'

/-- Do the characters form a name? -/
def isName : List Char → Bool
  | [] => false
  | c :: cs => isNameStart c && cs.all isNameChar

/-- Accepts the texts that are names. -/
def validateName (name : String) : Except DomError Unit :=
  if isName name.toList then .ok () else .error (.invalidCharacter name)

/-- The empty namespace stands for none. -/
def effectiveNs (ns : Option String) : Option String := ns.filter (!·.isEmpty)

/-- A qualified name in its parts. -/
structure QualifiedName where
  qualifier : Option String
  localName : String
  ns : Option String
deriving DecidableEq

namespace QualifiedName

/-- The characters before the first colon and those behind it, if there is a colon. -/
def splitColon (cs : List Char) : Option (List Char × List Char) :=
  match cs.dropWhile (· != ':') with
  | [] => none
  | _ :: rest => some (cs.takeWhile (· != ':'), rest)

/-- The parts of a name: with a colon, both sides have to be there and the second to be free of
colons. -/
def split (name : String) : Except DomError (Option String × String) :=
  match splitColon name.toList with
  | none => .ok (none, name)
  | some (before, behind) =>
    if before.isEmpty || behind.isEmpty || behind.contains ':' then .error (.invalidCharacter name)
    else .ok (some (String.ofList before), String.ofList behind)

/-- Do the parts of a name agree with its namespace? A qualifier needs a namespace, `xml` needs its
own, and exactly the namespace declarations are in the namespace of namespace declarations. -/
def agrees (name : String) (qualifier ns : Option String) : Bool :=
  !(qualifier.isSome && ns.isNone) && !(qualifier == some "xml" && ns != some xmlNs) &&
    ((name == "xmlns" || qualifier == some "xmlns") == (ns == some xmlnsNs))

/-- The parts of a qualified name in a namespace. -/
def extract (ns : Option String) (name : String) : Except DomError QualifiedName := do
  validateName name
  let (qualifier, localName) ← split name
  let ns := effectiveNs ns
  if agrees name qualifier ns then .ok ⟨qualifier, localName, ns⟩
  else .error (.namespaceMismatch name ns)

end QualifiedName

end DomHost
