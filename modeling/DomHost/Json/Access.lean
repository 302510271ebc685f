import DomHost.Json.Value

/-!
# Looking into JSON values

* `Json.text?`, `Json.int?`, `Json.double?`, …: a value as what it stands for, or none;
* `Json.member`, `Json.textAt`, `Json.natAt`, …: the members of an object, a missing one read as the
  empty text, zero or no, or the empty list.
-/

namespace DomHost.Json

/-! ## Values -/

/-- The text of a string. -/
def text? : Json → Option String
  | string s => s
  | _ => none

/-- A truth value. -/
def bool? : Json → Option Bool
  | bool b => some b
  | _ => none

/-- An integer. -/
def int? : Json → Option Int
  | number (.natural n) => some n
  | number (.negative n) => some (-(n : Int))
  | _ => none

/-- An integer in a closed range. -/
def intIn? (low high : Int) (v : Json) : Option Int :=
  v.int?.filter fun n => low ≤ n && n ≤ high

/-- A natural number below `2 ^ bits`. -/
def word? (bits : Nat) (v : Json) : Option Nat := (v.intIn? 0 (Nat.pow 2 bits - 1 : Nat)).map (·.toNat)

/-- A signed integer of 32 bits. -/
def int32? (v : Json) : Option Int32 :=
  (v.intIn? (-2147483648) 2147483647).map (·.toInt32)

/-- A double, or an integer taken as one. -/
def double? : Json → Option Float
  | number (.natural n) => some (Float.ofNat n)
  | number (.negative n) => some (-Float.ofNat n)
  | number (.real x) => x
  | _ => none

/-- A single: an integer or a double rounded to one. -/
def single? : Json → Option Float32
  | number (.natural n) => some (Float32.ofNat n)
  | number (.negative n) => some (-Float32.ofNat n)
  | number (.real x) => x.map (·.toFloat32)
  | _ => none

/-- The items of an array; none of anything else. -/
def items : Json → List Json
  | array vs => vs
  | _ => []

/-- A natural number, or zero. -/
def toNat (v : Json) : Nat := (v.int?.getD 0).toNat

/-- A double, also one that has to be named because JSON has no number for it; or zero. -/
def toFloat : Json → Float
  | string (some "NaN") => 0 / 0
  | string (some "inf") => 1 / 0
  | string (some "-inf") => -1 / 0
  | v => v.double?.getD 0

/-! ## Members -/

/-- The first member of a name, or `null`. -/
def member (v : Json) (name : String) : Json :=
  match v with
  | object members => ((members.find? (·.1 == some name)).map (·.2)).getD null
  | _ => null

/-- Is there a member of this name that is not `null`? -/
def hasMember (v : Json) (name : String) : Bool :=
  match v.member name with
  | null => false
  | _ => true

/-- The text of a member. -/
def textAt? (v : Json) (name : String) : Option String := (v.member name).text?

/-- The text of a member, or the empty text. -/
def textAt (v : Json) (name : String) : String := (v.textAt? name).getD ""

/-- The natural number of a member. -/
def natAt? (v : Json) (name : String) : Option Nat := (v.member name).word? 64

/-- The natural number of a member, or zero. -/
def natAt (v : Json) (name : String) : Nat := (v.member name).toNat

/-- The integer of a member, or zero. -/
def intAt (v : Json) (name : String) : Int := (v.member name).int?.getD 0

/-- The truth value of a member. -/
def flagAt? (v : Json) (name : String) : Option Bool := (v.member name).bool?

/-- The truth value of a member, or no. -/
def flagAt (v : Json) (name : String) : Bool := (v.flagAt? name).getD false

/-- The items of a member. -/
def itemsAt (v : Json) (name : String) : List Json := (v.member name).items

/-- The double of a member, or zero. -/
def floatAt (v : Json) (name : String) : Float := (v.member name).toFloat

/-- The double of a member, or a default. -/
def floatAtD (v : Json) (name : String) (default : Float) : Float :=
  if v.hasMember name then v.floatAt name else default

/-- The double of a member narrowed to a single, or zero. -/
def singleAt (v : Json) (name : String) : Float32 := (v.floatAt name).toFloat32

end DomHost.Json
