import DomHost.Decimal.Shortest
import DomHost.Text.Quoted

/-!
# Writing JSON

* `Json.quote`: a string;
* `FloatFormat`, `Json.double`, `Json.single`: numbers with the fewest digits that read back, written
  out while the exponent is moderate and with an exponent beyond that;
* `Json.list`, `Json.record`: arrays and objects without any white space.
-/

namespace DomHost.Json

/-! ## Strings -/

/-- A character inside a string. -/
def escapeChar : Char → String
  | '"' => "\\\""
  | '\\' => "\\\\"
  | '\x08' => "\\b"
  | '\x0c' => "\\f"
  | '\n' => "\\n"
  | '\r' => "\\r"
  | '\t' => "\\t"
  | c =>
    if c.toNat < 0x20 then "\\u00" ++ (if c.toNat < 0x10 then "0" else "") ++ Text.hex c.toNat
    else c.toString

/-- A string between quotes. -/
def quote (s : String) : String := "\"" ++ String.join (s.toList.map escapeChar) ++ "\""

/-! ## Numbers -/

/-- The decimal exponents that are written out. -/
structure FloatFormat where
  least : Int
  greatest : Int

/-- Doubles are written out for first digits from `10 ^ -5` to `10 ^ 15`. -/
def doubleFormat : FloatFormat := ⟨-5, 15⟩

/-- Singles are written out for first digits from `10 ^ -6` to `10 ^ 12`. -/
def singleFormat : FloatFormat := ⟨-6, 12⟩

/-- Digits with a point behind the first `n` of them, zeros filled in on either side. -/
def positional (digits : List Char) (exponent : Int) : List Char :=
  if exponent < 0 then
    '0' :: '.' :: (List.replicate ((-exponent).toNat - 1) '0' ++ digits)
  else
    let n := exponent.toNat + 1
    let whole := digits.take n ++ List.replicate (n - digits.length) '0'
    let fraction := digits.drop n
    whole ++ '.' :: (if fraction.isEmpty then ['0'] else fraction)

/-- Digits with a point behind the first, and an exponent with its sign. -/
def scientific (digits : List Char) (exponent : Int) : List Char :=
  let mantissa :=
    match digits with
    | [] => []
    | [d] => [d]
    | d :: rest => d :: '.' :: rest
  mantissa ++ 'e' :: (if exponent < 0 then '-' else '+') :: (toString exponent.natAbs).toList

/-- A decimal in a format. -/
def FloatFormat.write (f : FloatFormat) (d : Decimal) : String :=
  String.ofList <|
    if f.least ≤ d.exponent && d.exponent ≤ f.greatest then positional d.digits d.exponent
    else scientific d.digits d.exponent

/-- A double; what is not finite is written as `null`. -/
def double (x : Float) : String :=
  if x.isNaN || x.isInf then "null"
  else
    let sign := if 0x8000000000000000 ≤ x.toBits.toNat then "-" else ""
    match Binary.ofFloat? x with
    | some b => sign ++ doubleFormat.write b.shortest
    | none => sign ++ "0.0"

/-- A single; what is not finite is written as `null`. -/
def single (x : Float32) : String :=
  if x.isNaN || x.isInf then "null"
  else
    let sign := if 0x80000000 ≤ x.toBits.toNat then "-" else ""
    match Binary.ofFloat32? x with
    | some b => sign ++ singleFormat.write b.shortest
    | none => sign ++ "0.0"

/-! ## Arrays and objects -/

/-- A value that may be missing, in which case it is `null`. -/
def optional {α : Type} (f : α → String) : Option α → String
  | some a => f a
  | none => "null"

/-- A truth value. -/
def boolean (b : Bool) : String := if b then "true" else "false"

/-- An array of written values. -/
def list (items : List String) : String := "[" ++ String.intercalate "," items ++ "]"

/-- An object of written values. -/
def record (members : List (String × String)) : String :=
  "\x7b" ++ String.intercalate "," (members.map fun (k, v) => quote k ++ ":" ++ v) ++ "\x7d"

end DomHost.Json
