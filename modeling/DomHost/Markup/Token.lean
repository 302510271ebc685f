import DomHost.Markup.DocumentType
import DomHost.Markup.Reference

/-!
# Tokens of markup

Markup is cut into characters, tags, comments and document types. A tag that is cut off by the end of
the text is no token at all.

* `Token`: the tokens;
* `nextOfMarkup?`: the first tokens of markup and what follows them;
* `readTag?`, `readBang`, `readCharacter`: tags, what starts with `<!`, and characters.
-/

namespace DomHost.Markup

/-- A start tag; names are lowercase, and every attribute name comes once. -/
structure Tag where
  name : String
  attributes : List (String × String) := []
  selfClosing : Bool := false
deriving DecidableEq

/-- A token. A slip is a place where the text breaks the rules of markup and nothing else stands; a null
is a character with number zero in markup. -/
inductive Token where
  | char (c : Char)
  | null
  | slip
  | startTag (tag : Tag)
  | endTag (name : String)
  | comment (text : String)
  | documentType (type : DocumentType)
  | finished
deriving DecidableEq

/-! ## Tags -/

/-- Where a tag is being read, behind its name. The texts are kept last character first. -/
inductive TagState where
  | between (slash : Bool)
  | name (name : List Char)
  | named (name : List Char)
  | beforeValue (name : List Char)
  | value (quote? : Option Char) (name value : List Char)

/-- Adds an attribute, unless the tag has one of that name. -/
def commit (attributes : List (String × String)) (name value : List Char) : List (String × String) :=
  let name := lowered (name.reverse.map shown)
  if attributes.any (·.1 == name) then attributes
  else attributes ++ [(name, String.ofList (decode (value.reverse.map shown) 0))]

/-- Reads a tag behind its name: the attributes, whether it closes itself, and what follows it. -/
def readAttributes : TagState → List (String × String) → List Char →
    Option (List (String × String) × Bool × List Char)
  | _, _, [] => none
  | .between slash, found, c :: cs =>
    if isSpace c then readAttributes (.between false) found cs
    else if c == '/' then readAttributes (.between true) found cs
    else if c == '>' then some (found, slash, cs)
    else readAttributes (.name [c]) found cs
  | .name n, found, c :: cs =>
    if isSpace c then readAttributes (.named n) found cs
    else if c == '/' then readAttributes (.between true) (commit found n []) cs
    else if c == '>' then some (commit found n [], false, cs)
    else if c == '=' then readAttributes (.beforeValue n) found cs
    else readAttributes (.name (c :: n)) found cs
  | .named n, found, c :: cs =>
    if isSpace c then readAttributes (.named n) found cs
    else if c == '/' then readAttributes (.between true) (commit found n []) cs
    else if c == '>' then some (commit found n [], false, cs)
    else if c == '=' then readAttributes (.beforeValue n) found cs
    else readAttributes (.name [c]) (commit found n []) cs
  | .beforeValue n, found, c :: cs =>
    if isSpace c then readAttributes (.beforeValue n) found cs
    else if c == '"' || c == '\'' then readAttributes (.value (some c) n []) found cs
    else if c == '>' then some (commit found n [], false, cs)
    else readAttributes (.value none n [c]) found cs
  | .value (some q) n v, found, c :: cs =>
    if c == q then readAttributes (.between false) (commit found n v) cs
    else readAttributes (.value (some q) n (c :: v)) found cs
  | .value none n v, found, c :: cs =>
    if isSpace c then readAttributes (.between false) (commit found n v) cs
    else if c == '>' then some (commit found n v, false, cs)
    else readAttributes (.value none n (c :: v)) found cs

/-- Does the name of a tag go on with this character? -/
def isTagNameChar (c : Char) : Bool := !(isSpace c || c == '/' || c == '>')

/-- Reads a tag from its name on. -/
def readTag? (cs : List Char) : Option (Tag × List Char) := do
  let (attributes, selfClosing, rest) ← readAttributes (.between false) [] (cs.dropWhile isTagNameChar)
  some (⟨lowered ((cs.takeWhile isTagNameChar).map shown), attributes, selfClosing⟩, rest)

/-! ## Comments and document types -/

/-- Reads a comment up to its end; `text` is what was read, last character first. -/
def readComment (text : List Char) : List Char → List Char × List Char
  | '-' :: '-' :: '>' :: rest => (text.reverse, rest)
  | '-' :: '-' :: '!' :: '>' :: rest => (text.reverse, rest)
  | [] | ['-'] | ['-', '-'] | ['-', '-', '!'] => (text.reverse, [])
  | c :: cs => readComment (c :: text) cs

/-- A comment with the given characters. -/
def commentOf (cs : List Char) : Token := .comment (String.ofList (cs.map shown))

/-- What stands in front of the next `>`, and what stands behind it. -/
def upToClosing (cs : List Char) : List Char × List Char :=
  (cs.takeWhile (· != '>'), (cs.dropWhile (· != '>')).drop 1)

/-- A declaration that is not known is a comment. -/
def strayComment (cs : List Char) : Token × List Char :=
  let (text, rest) := upToClosing cs
  (commentOf text, rest)

/-- Reads what stands behind `<!`. -/
def readBang : List Char → Token × List Char
  | '-' :: '-' :: '>' :: rest => (.comment "", rest)
  | '-' :: '-' :: '-' :: '>' :: rest => (.comment "", rest)
  | '-' :: '-' :: cs =>
    let (text, rest) := readComment [] cs
    (commentOf text, rest)
  | cs =>
    if lowered (cs.take 7) == "doctype" then
      let (text, rest) := upToClosing (cs.drop 7)
      (.documentType (.ofText (!cs.contains '>') text), rest)
    else strayComment cs

/-! ## Characters -/

/-- The tokens of a reference. A faulty one is a slip, too. -/
def Reference.tokens (r : Reference) : List Token :=
  (if r.faulty then [.slip] else []) ++ r.value.map .char

/-- Reads a character, which may be written as a reference. -/
def readCharacter (c : Char) (cs : List Char) : List Token × List Char :=
  match if c == '&' then reference? false cs else none with
  | some r => (r.tokens, cs.drop r.length)
  | none => ([.char c], cs)

/-- A character as it stands in a section of text. -/
def plainCharacter (c : Char) : Token := if c == '\x00' then .null else .char c

/-- Reads a section of text inside SVG or MathML, up to the end of the section. -/
def readSection : List Char → List Token × List Char
  | ']' :: ']' :: '>' :: rest => ([], rest)
  | [] => ([], [])
  | c :: cs =>
    let (tokens, rest) := readSection cs
    (plainCharacter c :: tokens, rest)

/-! ## The first tokens -/

/-- A token in front of a text. -/
def alone (found : Token × List Char) : List Token × List Char := ([found.1], found.2)

/-- How a section of text starts behind `<!`. -/
def sectionStart : List Char := "[CDATA[".toList

/-- The first tokens of markup and what follows them; there are sections of text only inside SVG and
MathML. An end tag without a name is a slip. -/
def nextOfMarkup? (foreign : Bool) : List Char → Option (List Token × List Char)
  | [] => none
  | '<' :: '/' :: '>' :: cs => some ([.slip], cs)
  | '<' :: '/' :: c :: cs =>
    if c.isAlpha then (readTag? (c :: cs)).map fun (tag, rest) => ([.endTag tag.name], rest)
    else some (alone (strayComment (c :: cs)))
  | '<' :: '!' :: cs =>
    if foreign && sectionStart.isPrefixOf cs then some (readSection (cs.drop sectionStart.length))
    else some (alone (readBang cs))
  | '<' :: '?' :: cs => some (alone (strayComment ('?' :: cs)))
  | '<' :: c :: cs =>
    if c.isAlpha then (readTag? (c :: cs)).map fun (tag, rest) => ([.startTag tag], rest)
    else some ([.char '<'], c :: cs)
  | c :: cs => some (if c == '\x00' then ([.null], cs) else readCharacter c cs)

end DomHost.Markup
