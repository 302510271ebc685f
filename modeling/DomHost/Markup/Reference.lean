import DomHost.Markup.CharacterNames
import DomHost.Text.Hex

/-!
# Character references

A reference is an ampersand with a name or a number, and ends with a semicolon that numbers and some
names may leave out. Of two names the longer one counts. Texts that are no reference stand for
themselves.

* `Reference`, `reference?`: what a text behind an ampersand stands for;
* `decode`: the value of an attribute with all references replaced.
-/

namespace DomHost.Markup

/-- What a reference stands for, and the number of characters it takes behind its ampersand. A number
that leaves out its semicolon is faulty. -/
structure Reference where
  value : List Char
  length : Nat
  faulty : Bool := false
deriving DecidableEq

/-- The value of digits in a base. -/
def valueOf (base : Nat) (digits : List Char) : Nat :=
  digits.foldl (fun v c => base * v + (Text.hexDigit? c).getD 0) 0

/-! ## Names -/

/-- A name and what it stands for. -/
structure CharacterName where
  name : List Char
  value : List Char
  bare : Bool

/-- A name from its entry in the table. -/
def CharacterName.ofEntry? (entry : String) : Option CharacterName :=
  match entry.splitOn " " with
  | [name, codes] =>
    let value := (codes.splitOn "+").map fun digits => Char.ofNat (valueOf 16 digits.toList)
    some ⟨name.toList, value, bareNames.contains name⟩
  | _ => none

/-- All names. -/
def characterNames : List CharacterName :=
  (nameLines.flatMap (·.splitOn "; ")).filterMap CharacterName.ofEntry?

/-- The reference that a name makes in front of a text. -/
def CharacterName.reference? (n : CharacterName) (cs : List Char) : Option Reference :=
  if n.name.isPrefixOf cs then
    if (cs.drop n.name.length).head? == some ';' then some ⟨n.value, n.name.length + 1, false⟩
    else if n.bare then some ⟨n.value, n.name.length, false⟩
    else none
  else none

/-- The longer one of two references. -/
def Reference.longer (best : Option Reference) (r : Reference) : Option Reference :=
  match best with
  | some b => if b.length < r.length then some r else best
  | none => some r

/-- Does a name that ends without a semicolon go on behind its end? -/
def goesOn (cs : List Char) : Bool :=
  match cs with
  | c :: _ => c == '=' || c.isAlphanum
  | [] => false

/-- The longest name in front of a text. In an attribute, a name that goes on is no reference unless it
ends with a semicolon. -/
def named? (inAttribute : Bool) (cs : List Char) : Option Reference := do
  let r ← (characterNames.filterMap (·.reference? cs)).foldl Reference.longer none
  let closed := (cs.take r.length).getLast? == some ';'
  if inAttribute && !closed && goesOn (cs.drop r.length) then none else some r

/-! ## Numbers -/

/-- What the numbers from 128 to 159 stand for. -/
def legacyCodes : Array Nat :=
  #[0x20ac, 0x81, 0x201a, 0x0192, 0x201e, 0x2026, 0x2020, 0x2021, 0x02c6, 0x2030, 0x0160, 0x2039,
    0x0152, 0x8d, 0x017d, 0x8f, 0x90, 0x2018, 0x2019, 0x201c, 0x201d, 0x2022, 0x2013, 0x2014, 0x02dc,
    0x2122, 0x0161, 0x203a, 0x0153, 0x9d, 0x017e, 0x0178]

/-- The character with a number; numbers of no character stand for the replacement character. -/
def characterOf (n : Nat) : Char :=
  if n = 0 ∨ 0x10ffff < n ∨ (0xd800 ≤ n ∧ n ≤ 0xdfff) then '\ufffd'
  else if 128 ≤ n ∧ n < 160 then Char.ofNat (legacyCodes.getD (n - 128) n)
  else Char.ofNat n

/-- The number that stands behind `taken` characters of a reference. -/
def numbered? (base taken : Nat) (isDigit : Char → Bool) (cs : List Char) : Option Reference :=
  match cs.takeWhile isDigit with
  | [] => none
  | digits =>
    let value := [characterOf (valueOf base digits)]
    if (cs.drop digits.length).head? == some ';' then some ⟨value, taken + digits.length + 1, false⟩
    else some ⟨value, taken + digits.length, true⟩

/-! ## References -/

/-- The reference that a text right behind an ampersand makes. -/
def reference? (inAttribute : Bool) : List Char → Option Reference
  | '#' :: 'x' :: rest | '#' :: 'X' :: rest =>
    numbered? 16 2 (fun c => (Text.hexDigit? c).isSome) rest
  | '#' :: rest => numbered? 10 1 Char.isDigit rest
  | cs => named? inAttribute cs

/-- An attribute value with its references replaced; `skip` characters belong to the last one. -/
def decode : List Char → (skip : Nat) → List Char
  | [], _ => []
  | _ :: cs, skip + 1 => decode cs skip
  | c :: cs, 0 =>
    if c == '&' then
      match reference? true cs with
      | some r => r.value ++ decode cs r.length
      | none => c :: decode cs 0
    else c :: decode cs 0

end DomHost.Markup
