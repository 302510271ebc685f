import DomHost.Markup.Input

/-!
# Document types

A document type names the language of a document and may identify its version, in public or for the
system at hand. Types of the time before the standard ask for the looser rules of that time.

* `DocumentType`: what a declaration says;
* `DocumentType.ofText`: the declaration that a text makes;
* `DocumentType.isLoose`: does a document of this type follow the looser rules?
-/

namespace DomHost.Markup

/-- What a document type says. One that does not follow the form of such declarations is broken. -/
structure DocumentType where
  name : String
  publicId? : Option String := none
  systemId? : Option String := none
  broken : Bool := false
deriving DecidableEq

namespace DocumentType

/-- Reads the system identifier and what follows it, the word for it left out. Where the text is cut
off, so is the declaration. -/
def withSystem (d : DocumentType) (cutOff : Bool) (cs : List Char) : DocumentType :=
  match cs with
  | q :: cs =>
    if q == '"' || q == '\'' then
      let d := { d with systemId? := some (String.ofList (cs.takeWhile (· != q))) }
      match cs.dropWhile (· != q) with
      | _ :: rest => { d with broken := cutOff && rest.all isSpace }
      | [] => { d with broken := true }
    else { d with broken := true }
  | [] => { d with broken := true }

/-- Reads the public identifier and what follows it, the word for it left out. -/
def withPublic (d : DocumentType) (cutOff : Bool) (cs : List Char) : DocumentType :=
  match cs with
  | q :: cs =>
    if q == '"' || q == '\'' then
      let d := { d with publicId? := some (String.ofList (cs.takeWhile (· != q))) }
      match cs.dropWhile (· != q) with
      | _ :: rest =>
        match rest.dropWhile isSpace with
        | [] => { d with broken := cutOff }
        | rest => d.withSystem cutOff rest
      | [] => { d with broken := true }
    else { d with broken := true }
  | [] => { d with broken := true }

/-- The declaration that a text makes, without what opens and closes it. -/
def ofText (cutOff : Bool) (cs : List Char) : DocumentType :=
  let cs := (cs.map shown).dropWhile isSpace
  let d : DocumentType := { name := lowered (cs.takeWhile (!isSpace ·)) }
  let rest := (cs.dropWhile (!isSpace ·)).dropWhile isSpace
  let word := lowered (rest.take 6)
  let identifier := (rest.drop 6).dropWhile isSpace
  if cs.isEmpty then { d with broken := true }
  else if rest.isEmpty then { d with broken := cutOff }
  else if word == "public" then d.withPublic cutOff identifier
  else if word == "system" then d.withSystem cutOff identifier
  else { d with broken := true }

/-! ## Loose types -/

/-- The public identifiers of loose types. -/
def loosePublicIds : List String :=
  ["-//w3o//dtd w3 html strict 3.0//en//", "-/w3c/dtd html 4.0 transitional/en", "html"]

/-- The system identifier of a loose type. -/
def looseSystemId : String := "http://www.ibm.com/data/dtd/v11/ibmxhtml1-transitional.dtd"

/-- How the public identifiers of loose types begin. -/
def loosePublicStarts : List String :=
  ["+//silmaril//dtd html pro v0r11 19970101//",
    "-//advasoft ltd//dtd html 3.0 aswedit + extensions//",
    "-//as//dtd html 3.0 aswedit + extensions//",
    "-//ietf//dtd html 2.0 level 1//",
    "-//ietf//dtd html 2.0 level 2//",
    "-//ietf//dtd html 2.0 strict level 1//",
    "-//ietf//dtd html 2.0 strict level 2//",
    "-//ietf//dtd html 2.0 strict//",
    "-//ietf//dtd html 2.0//",
    "-//ietf//dtd html 2.1e//",
    "-//ietf//dtd html 3.0//",
    "-//ietf//dtd html 3.2 final//",
    "-//ietf//dtd html 3.2//",
    "-//ietf//dtd html 3//",
    "-//ietf//dtd html level 0//",
    "-//ietf//dtd html level 1//",
    "-//ietf//dtd html level 2//",
    "-//ietf//dtd html level 3//",
    "-//ietf//dtd html strict level 0//",
    "-//ietf//dtd html strict level 1//",
    "-//ietf//dtd html strict level 2//",
    "-//ietf//dtd html strict level 3//",
    "-//ietf//dtd html strict//",
    "-//ietf//dtd html//",
    "-//metrius//dtd metrius presentational//",
    "-//microsoft//dtd internet explorer 2.0 html strict//",
    "-//microsoft//dtd internet explorer 2.0 html//",
    "-//microsoft//dtd internet explorer 2.0 tables//",
    "-//microsoft//dtd internet explorer 3.0 html strict//",
    "-//microsoft//dtd internet explorer 3.0 html//",
    "-//microsoft//dtd internet explorer 3.0 tables//",
    "-//netscape comm. corp.//dtd html//",
    "-//netscape comm. corp.//dtd strict html//",
    "-//o'reilly and associates//dtd html 2.0//",
    "-//o'reilly and associates//dtd html extended 1.0//",
    "-//o'reilly and associates//dtd html extended relaxed 1.0//",
    "-//softquad software//dtd hotmetal pro 6.0::19990601::extensions to html 4.0//",
    "-//softquad//dtd hotmetal pro 4.0::19971010::extensions to html 4.0//",
    "-//spyglass//dtd html 2.0 extended//",
    "-//sq//dtd html 2.0 hotmetal + extensions//",
    "-//sun microsystems corp.//dtd hotjava html//",
    "-//sun microsystems corp.//dtd hotjava strict html//",
    "-//w3c//dtd html 3 1995-03-24//",
    "-//w3c//dtd html 3.2 draft//",
    "-//w3c//dtd html 3.2 final//",
    "-//w3c//dtd html 3.2//",
    "-//w3c//dtd html 3.2s draft//",
    "-//w3c//dtd html 4.0 frameset//",
    "-//w3c//dtd html 4.0 transitional//",
    "-//w3c//dtd html experimental 19960712//",
    "-//w3c//dtd html experimental 970421//",
    "-//w3c//dtd w3 html//",
    "-//w3o//dtd w3 html 3.0//",
    "-//webtechs//dtd mozilla html 2.0//",
    "-//webtechs//dtd mozilla html//"]

/-- How the public identifiers begin that are loose only without a system identifier. -/
def loosePublicStartsAlone : List String :=
  ["-//w3c//dtd html 4.01 frameset//", "-//w3c//dtd html 4.01 transitional//"]

/-- Does a document of this type follow the looser rules? -/
def isLoose (d : DocumentType) : Bool :=
  let startsIn (starts : List String) : Bool :=
    d.publicId?.any fun p => starts.any fun s => s.toList.isPrefixOf (p.toList.map Char.toLower)
  d.broken || d.name != "html" ||
    (d.publicId?.any fun p => loosePublicIds.contains (lowered p.toList)) ||
    (d.systemId?.any fun s => lowered s.toList == looseSystemId) ||
    startsIn loosePublicStarts || (d.systemId?.isNone && startsIn loosePublicStartsAlone)

end DocumentType

end DomHost.Markup
