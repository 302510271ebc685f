import DomHost.Markup.Token

/-!
# Texts that are not markup

Some elements hold text that goes up to their end tag. In a script, an end tag does not count inside a
comment in which another script is opened.

* `Content`: what a piece of text is read as;
* `ScriptPlace`: where in a script a character stands;
* `Token.next?`: the first tokens of a text and what follows them;
* **`splitText_append`**, **`splitScript_append`**: the two parts of a text are the whole text.
-/

namespace DomHost.Markup

/-- What a piece of text is read as: markup, a script, or other text up to the end tag of an element,
with or without references. Without a name there is no such end tag. -/
inductive Content where
  | markup
  | script
  | text (references : Bool) (until? : Option String)
deriving DecidableEq

/-- Does the end tag of an element stand behind this `<`? -/
def endsElement (name : String) : List Char → Bool
  | '/' :: cs =>
    let found := cs.takeWhile isTagNameChar
    lowered found == name && found.length < cs.length
  | _ => false

/-- Splits a text in front of the end tag of an element. -/
def splitText (name : String) : List Char → List Char × List Char
  | [] => ([], [])
  | c :: cs =>
    if c == '<' && endsElement name cs then ([], c :: cs)
    else
      let (text, rest) := splitText name cs
      (c :: text, rest)

theorem splitText_append (name : String) (cs : List Char) :
    (splitText name cs).1 ++ (splitText name cs).2 = cs := by
  induction cs with
  | nil => rfl
  | cons c cs ih => rw [splitText]; split <;> simp [ih]

/-! ## Scripts -/

/-- Where in a script a character stands: in plain text, in the mark that opens a comment, in a comment
behind some dashes, in a tag name in it, or in the same places of a script inside the comment. The
letters of a name are kept last first. -/
inductive ScriptPlace where
  | plain
  | mark (left : Nat)
  | comment (dashes : Nat)
  | startName (letters : List Char)
  | inner (dashes : Nat)
  | innerSlash
  | innerEndName (letters : List Char)

namespace ScriptPlace

/-- The place behind a character of a comment, in front of `next`. -/
def ofComment (dashes : Nat) (c : Char) (next : List Char) : ScriptPlace :=
  if c == '-' then comment (dashes + 1)
  else if c == '>' && 2 ≤ dashes then plain
  else if c == '<' && next.head?.any Char.isAlpha then startName []
  else comment 0

/-- The place behind a character of a script inside a comment, in front of `next`. -/
def ofInner (dashes : Nat) (c : Char) (next : List Char) : ScriptPlace :=
  if c == '-' then inner (dashes + 1)
  else if c == '>' && 2 ≤ dashes then plain
  else if c == '<' && next.head? == some '/' then innerSlash
  else inner 0

/-- Is this the name of a script? -/
def isScript (letters : List Char) : Bool := String.ofList letters.reverse == "script"

/-- The place behind a character, in front of `next`. -/
def after (c : Char) (next : List Char) : ScriptPlace → ScriptPlace
  | plain => if c == '<' && ['!', '-', '-'].isPrefixOf next then mark 3 else plain
  | mark left => if left ≤ 1 then comment 2 else mark (left - 1)
  | comment dashes => ofComment dashes c next
  | startName letters =>
    if c.isAlpha then startName (c.toLower :: letters)
    else if isTagNameChar c then ofComment 0 c next
    else if isScript letters then inner 0
    else comment 0
  | inner dashes => ofInner dashes c next
  | innerSlash => innerEndName []
  | innerEndName letters =>
    if c.isAlpha then innerEndName (c.toLower :: letters)
    else if isTagNameChar c then ofInner 0 c next
    else if isScript letters then comment 0
    else inner 0

/-- Is this a place where the script can end? -/
def canEnd : ScriptPlace → Bool
  | plain | comment _ | startName _ => true
  | mark _ | inner _ | innerSlash | innerEndName _ => false

end ScriptPlace

/-- Splits a text from a place of a script on, in front of the end tag of the script. -/
def splitScript (p : ScriptPlace) : List Char → List Char × List Char
  | [] => ([], [])
  | c :: cs =>
    if c == '<' && p.canEnd && endsElement "script" cs then ([], c :: cs)
    else
      let (text, rest) := splitScript (p.after c cs) cs
      (c :: text, rest)

theorem splitScript_append (p : ScriptPlace) (cs : List Char) :
    (splitScript p cs).1 ++ (splitScript p cs).2 = cs := by
  induction cs generalizing p with
  | nil => rfl
  | cons c cs ih => rw [splitScript]; split <;> simp [ih]

/-! ## The first tokens -/

/-- The characters of a text with references; `skip` characters belong to the last one. -/
def decodeTokens : List Char → (skip : Nat) → List Token
  | [], _ => []
  | _ :: cs, skip + 1 => decodeTokens cs skip
  | c :: cs, 0 =>
    match if c == '&' then reference? false cs else none with
    | some r => r.tokens ++ decodeTokens cs r.length
    | none => .char (shown c) :: decodeTokens cs 0

/-- Splits a text that is not markup into its characters and what follows them. -/
def Content.split : Content → List Char → List Token × List Char
  | .markup, cs => ([], cs)
  | .script, cs =>
    let (inside, rest) := splitScript .plain cs
    (inside.map fun c => .char (shown c), rest)
  | .text references until?, cs =>
    let (inside, rest) :=
      match until? with
      | some name => splitText name cs
      | none => (cs, [])
    (if references then decodeTokens inside 0 else inside.map fun c => .char (shown c), rest)

/-- What follows an end tag. A byte order mark right behind a script is no part of the text. -/
def Content.behindEnd : Content → List Char → List Char
  | .script, c :: cs => if c == byteOrderMark then cs else c :: cs
  | _, cs => cs

/-- The first tokens of a text and what follows them. A text that is not markup comes with its end
tag. -/
def Token.next? (foreign : Bool) (content : Content) (cs : List Char) :
    Option (List Token × List Char) :=
  if cs.isEmpty then none
  else if content = .markup then nextOfMarkup? foreign cs
  else
    let (tokens, rest) := content.split cs
    match readTag? (rest.drop 2) with
    | some (tag, rest) => some (tokens ++ [.endTag tag.name], content.behindEnd rest)
    | none => some (tokens, [])

end DomHost.Markup
