import DomHost.Text.Hex
import DomHost.Text.Unprintable

/-!
# Quoted texts in messages

A message shows a text between double quotes, with what could be mistaken or not seen written as an
escape: `\"` and `\\`, the named controls, and `\u{…}` with the hexadecimal code point for every other
character without a shape of its own.

* `escapeChar`, `quoted`: the escape of one character and the quoted text;
* `quotedOption`: `Some("…")` or `None`.
-/

namespace DomHost.Text

/-- One character as it stands inside a quoted text. -/
def escapeChar (c : Char) : String :=
  match c with
  | '\x00' => "\\0"
  | '\t' => "\\t"
  | '\r' => "\\r"
  | '\n' => "\\n"
  | '\\' => "\\\\"
  | '"' => "\\\""
  | c => if isUnprintable c then "\\u\x7b" ++ hex c.toNat ++ "\x7d" else c.toString

/-- A text between double quotes, escaped. -/
def quoted (s : String) : String :=
  "\"" ++ String.join (s.toList.map escapeChar) ++ "\""

/-- An optional text, quoted when it is there. -/
def quotedOption : Option String → String
  | some s => "Some(" ++ quoted s ++ ")"
  | none => "None"

end DomHost.Text
