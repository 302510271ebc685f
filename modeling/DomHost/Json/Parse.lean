import DomHost.Json.Value
import DomHost.Text.Hex

/-!
# Reading JSON

The strict grammar: no comments, no trailing commas, no leading zeros, no control characters in
strings, nothing behind the value. Numbers are read into 64 bits of significand, with digits beyond
those dropped, and scaled by powers of ten in double precision.

* `Json.readNumber`, `Json.readString`: the leaves;
* `Json.parse?`: a whole text.
-/

namespace DomHost.Json

open Text (hexDigit?)

/-- A reader of the characters that are left; a fault ends the reading. -/
abbrev Reader (α : Type) := List Char → Option (α × List Char)

/-- Drops white space. -/
def skipSpace (cs : List Char) : List Char :=
  cs.dropWhile fun c => c == ' ' || c == '\n' || c == '\t' || c == '\r'

/-! ## Numbers -/

/-- The value of a decimal digit. -/
def digit? (c : Char) : Option Nat := if c.isDigit then some (c.toNat - '0'.toNat) else none

/-- A decimal in the making: a significand below `2 ^ 64` and a power of ten. -/
structure Scaled where
  significand : Nat := 0
  exponent : Int := 0
  full : Bool := false

/-- Does one more digit fit into the significand? -/
def Scaled.fits (s : Scaled) (d : Nat) : Bool :=
  !s.full && s.significand * 10 + d < 18446744073709551616

/-- One more digit before the point; beyond 64 bits only its place counts. -/
def Scaled.pushInteger (s : Scaled) (d : Nat) : Scaled :=
  if s.fits d then { s with significand := s.significand * 10 + d }
  else { s with exponent := s.exponent + 1, full := true }

/-- One more digit behind the point; beyond 64 bits it is dropped. -/
def Scaled.pushFraction (s : Scaled) (d : Nat) : Scaled :=
  if s.significand * 10 + d < 18446744073709551616 && !s.full then
    { s with significand := s.significand * 10 + d, exponent := s.exponent - 1 }
  else { s with full := true }

/-- The digits at the front, with what follows them. -/
def digits (cs : List Char) : List Nat × List Char :=
  (cs.takeWhile (·.isDigit) |>.filterMap digit?, cs.dropWhile (·.isDigit))

/-- `10 ^ n` as a double. -/
def powerOfTen (n : Nat) : Float := Float.ofScientific 1 false n

/-- Scales a double by a power of ten, a factor `10 ^ 308` at a time; a result out of range is none. -/
def scale (f : Float) (exponent : Int) : (fuel : Nat) → Option Float
  | 0 => some f
  | fuel + 1 =>
    if exponent.natAbs ≤ 308 then
      let p := powerOfTen exponent.natAbs
      if 0 ≤ exponent then if (f * p).isInf then none else some (f * p) else some (f / p)
    else if f == 0 then some f
    else if 0 ≤ exponent then none
    else scale (f / powerOfTen 308) (exponent + 308) fuel

/-- The double of a significand and a power of ten. -/
def Scaled.toFloat? (s : Scaled) : Option Float := scale (Float.ofNat s.significand) s.exponent 64

/-- The double with a sign. -/
def signed (negative : Bool) (x : Option Float) : Number :=
  .real (x.map fun f => if negative then -f else f)

/-- The greatest 32-bit exponent; a written exponent beyond it counts as out of range. -/
def maxExponent : Nat := 2147483647

/-- Reads the exponent that follows the letter, and applies it. -/
def readExponent (negative : Bool) (s : Scaled) (cs : List Char) : Option (Number × List Char) :=
  let (down, cs) :=
    match cs with
    | '+' :: rest => (false, rest)
    | '-' :: rest => (true, rest)
    | cs => (false, cs)
  match digits cs with
  | ([], _) => none
  | (ds, rest) =>
    let e := ds.foldl (fun n d => n * 10 + d) 0
    if maxExponent < e then
      if s.significand = 0 || down then some (signed negative (some 0), rest)
      else some (.real none, rest)
    else
      let total : Int := s.exponent + (if down then -(e : Int) else e)
      some (signed negative { s with exponent := total }.toFloat?, rest)

/-- Reads what follows the digits before the point. -/
def readFraction (negative : Bool) (s : Scaled) (cs : List Char) : Option (Number × List Char) :=
  match cs with
  | '.' :: rest =>
    match digits rest with
    | ([], _) => none
    | (ds, rest) =>
      let s := ds.foldl Scaled.pushFraction s
      match rest with
      | 'e' :: rest | 'E' :: rest => readExponent negative s rest
      | rest => some (signed negative s.toFloat?, rest)
  | 'e' :: rest | 'E' :: rest => readExponent negative s rest
  | cs =>
    if s.full then some (signed negative s.toFloat?, cs)
    else if !negative then some (.natural s.significand, cs)
    else if 0 < s.significand && s.significand ≤ 9223372036854775808 then
      some (.negative s.significand, cs)
    else some (signed true (some (Float.ofNat s.significand)), cs)

/-- Reads a number behind its sign. -/
def readUnsigned (negative : Bool) (cs : List Char) : Option (Number × List Char) :=
  match digits cs with
  | ([], _) => none
  | (0 :: _ :: _, _) => none
  | (ds, rest) => readFraction negative (ds.foldl Scaled.pushInteger {}) rest

/-- Reads a number. -/
def readNumber : Reader Number
  | '-' :: cs => readUnsigned true cs
  | cs => readUnsigned false cs

/-! ## Strings -/

/-- The number of four hexadecimal digits. -/
def hexUnit? (a b c d : Char) : Option Nat := do
  some ((((← hexDigit? a) * 16 + (← hexDigit? b)) * 16 + (← hexDigit? c)) * 16 + (← hexDigit? d))

/-- The character that a letter behind a backslash stands for. -/
def simpleEscape? : Char → Option Char
  | '"' => some '"'
  | '\\' => some '\\'
  | '/' => some '/'
  | 'b' => some '\x08'
  | 'f' => some '\x0c'
  | 'n' => some '\n'
  | 'r' => some '\r'
  | 't' => some '\t'
  | _ => none

/-- Is this the first half of a surrogate pair? -/
def isHighSurrogate (n : Nat) : Bool := 0xD800 ≤ n && n ≤ 0xDBFF

/-- Is this the second half of a surrogate pair? -/
def isLowSurrogate (n : Nat) : Bool := 0xDC00 ≤ n && n ≤ 0xDFFF

/-- The pieces of a string behind its opening quote, behind those of `acc`, which come last first: the
numbers of its characters, with each half of a surrogate pair on its own. -/
def readUnits (acc : List Nat) : List Char → Option (List Nat × List Char)
  | [] => none
  | '"' :: rest => some (acc.reverse, rest)
  | '\\' :: 'u' :: a :: b :: c :: d :: rest =>
    match hexUnit? a b c d with
    | some n => readUnits (n :: acc) rest
    | none => none
  | '\\' :: c :: rest =>
    match simpleEscape? c with
    | some d => readUnits (d.toNat :: acc) rest
    | none => none
  | c :: rest => if c.toNat < 0x20 || c == '\\' then none else readUnits (c.toNat :: acc) rest

/-- The characters of the pieces of a string, behind those of `acc`, which come last first; none if
half of a surrogate pair stands alone. -/
def joinSurrogates (acc : List Char) : List Nat → Option (List Char)
  | [] => some acc.reverse
  | [n] =>
    if isHighSurrogate n || isLowSurrogate n then none else some (Char.ofNat n :: acc).reverse
  | n :: m :: rest =>
    if isHighSurrogate n then
      if isLowSurrogate m then
        joinSurrogates (Char.ofNat (0x10000 + (n - 0xD800) * 0x400 + (m - 0xDC00)) :: acc) rest
      else none
    else if isLowSurrogate n then none
    else joinSurrogates (Char.ofNat n :: acc) (m :: rest)

/-- Reads a string behind its opening quote. -/
def readString : Reader (Option String) := fun cs =>
  (readUnits [] cs).map fun (units, rest) => ((joinSurrogates [] units).map String.ofList, rest)

/-! ## Values -/

/-- Drops an expected text. -/
def expect (text : String) (v : Json) (cs : List Char) : Option (Json × List Char) :=
  if text.toList.isPrefixOf cs then some (v, cs.drop text.length) else none

mutual

/-- Reads a value, white space before it included. -/
def readValue : (fuel : Nat) → Reader Json
  | 0, _ => none
  | fuel + 1, cs =>
    match skipSpace cs with
    | 'n' :: rest => expect "ull" .null rest
    | 't' :: rest => expect "rue" (.bool true) rest
    | 'f' :: rest => expect "alse" (.bool false) rest
    | '"' :: rest => (readString rest).map fun (s, rest) => (.string s, rest)
    | '[' :: rest =>
      match skipSpace rest with
      | ']' :: rest => some (.array [], rest)
      | rest => (readItems fuel rest).map fun (items, rest) => (.array items, rest)
    | '\x7b' :: rest =>
      match skipSpace rest with
      | '\x7d' :: rest => some (.object [], rest)
      | rest => (readMembers fuel rest).map fun (members, rest) => (.object members, rest)
    | cs => (readNumber cs).map fun (n, rest) => (.number n, rest)

/-- Reads the items of an array up to its end. -/
def readItems : (fuel : Nat) → Reader (List Json)
  | 0, _ => none
  | fuel + 1, cs => do
    let (v, rest) ← readValue fuel cs
    match skipSpace rest with
    | ']' :: rest => some ([v], rest)
    | ',' :: rest =>
      let (items, rest) ← readItems fuel rest
      some (v :: items, rest)
    | _ => none

/-- Reads the members of an object up to its end. -/
def readMembers : (fuel : Nat) → Reader (List (Option String × Json))
  | 0, _ => none
  | fuel + 1, cs =>
    match skipSpace cs with
    | '"' :: rest => do
      let (name, rest) ← readString rest
      match skipSpace rest with
      | ':' :: rest =>
        let (v, rest) ← readValue fuel rest
        match skipSpace rest with
        | '\x7d' :: rest => some ([(name, v)], rest)
        | ',' :: rest =>
          let (members, rest) ← readMembers fuel rest
          some ((name, v) :: members, rest)
        | _ => none
      | _ => none
    | _ => none

end

/-- The value that a text writes. -/
def parse? (text : String) : Option Json :=
  let cs := text.toList
  match readValue (2 * cs.length + 2) cs with
  | some (v, rest) => if (skipSpace rest).isEmpty then some v else none
  | none => none

end DomHost.Json
