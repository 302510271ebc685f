/-!
# Shortest decimals

A binary floating-point number stands for all reals that round to it. Its shortest decimal is the one
with the fewest digits among those reals, and of these the nearest to the number itself. For each
count of digits only the two neighbours of the number on that decimal grid can be it.

* `Binary`, `Binary.ofFloat?`, `Binary.ofFloat32?`: a finite positive number as `m · 2 ^ q`;
* `Decimal`: digits and the exponent of the first;
* `Binary.shortest`: the shortest decimal.
-/

namespace DomHost

/-- The number `mantissa · 2 ^ exponent`. When `narrow`, the next smaller number is only half as far
away as the next larger one. -/
structure Binary where
  mantissa : Nat
  exponent : Int
  narrow : Bool

/-- A positive decimal: the digits without trailing zeros, and the power of ten of the first digit. -/
structure Decimal where
  digits : List Char
  exponent : Int
deriving DecidableEq

namespace Binary

/-- Splits the magnitude of a number with `fraction` explicit bits of mantissa, whose exponents start
at `least` and have `top` as their largest, reserved biased value. Zero, infinities and NaN have no
parts. -/
def ofBits? (fraction top : Nat) (least : Int) (magnitude : Nat) : Option Binary :=
  let hidden := Nat.pow 2 fraction
  let f := magnitude % hidden
  let e := magnitude / hidden
  if e = top || magnitude = 0 then none
  else if e = 0 then some ⟨f, least, false⟩
  else some ⟨hidden + f, least + (e - 1 : Nat), f = 0 && 1 < e⟩

/-- The parts of the magnitude of a double. -/
def ofFloat? (x : Float) : Option Binary :=
  ofBits? 52 2047 (-1074) (x.toBits.toNat % 0x8000000000000000)

/-- The parts of the magnitude of a single. -/
def ofFloat32? (x : Float32) : Option Binary :=
  ofBits? 23 255 (-149) (x.toBits.toNat % 0x80000000)

/-- Four times the number, times `10 ^ scale`, as a fraction: `unit` is the value of one quarter of
the spacing above it. -/
def quarterUnit (b : Binary) (scale : Int) : Nat × Nat :=
  let two := b.exponent
  let num := Nat.pow 2 two.toNat * Nat.pow 10 scale.toNat
  let den := 4 * Nat.pow 2 (-two).toNat * Nat.pow 10 (-scale).toNat
  (num, den)

/-- The power of ten of the first digit. -/
def decimalExponent (b : Binary) : Int :=
  if 0 ≤ b.exponent then
    ((toString (b.mantissa * Nat.pow 2 b.exponent.toNat)).length : Int) - 1
  else
    let k := (-b.exponent).toNat
    ((toString (b.mantissa * Nat.pow 10 k / Nat.pow 2 k)).length : Int) - 1 - k

/-- Is `candidate / 10 ^ scale` among the reals that round to the number? The ends of that interval
belong to it when the mantissa is even. -/
def holds (b : Binary) (scale : Int) (candidate : Nat) : Bool :=
  let (num, den) := b.quarterUnit scale
  let low := (4 * b.mantissa - (if b.narrow then 1 else 2)) * num
  let high := (4 * b.mantissa + 2) * num
  let c := candidate * den
  if b.mantissa % 2 = 0 then low ≤ c && c ≤ high else low < c && c < high

/-- The neighbour of the number on the grid of multiples of `10 ^ -scale` that rounds to it, the nearer
one if both do; of two equally near ones, the even one. -/
def neighbour? (b : Binary) (scale : Int) : Option Nat :=
  let (num, den) := b.quarterUnit scale
  let v := 4 * b.mantissa * num
  let below := v / den
  let rest := v % den
  match b.holds scale below, b.holds scale (below + 1) with
  | true, true =>
    if 2 * rest < den || (2 * rest = den && below % 2 = 0) then some below else some (below + 1)
  | true, false => some below
  | false, true => some (below + 1)
  | false, false => none

/-- The first hit on the grids with `count`, `count + 1`, … digits, for at most `fuel` of them. -/
def firstHit (b : Binary) (first : Int) : (fuel count : Nat) → Nat × Int
  | 0, count => (b.mantissa, (count : Int))
  | fuel + 1, count =>
    let scale := (count : Int) - 1 - first
    match b.neighbour? scale with
    | some n => if n = 0 then firstHit b first fuel (count + 1) else (n, scale)
    | none => firstHit b first fuel (count + 1)

/-- The shortest decimal of a number; seventeen digits always suffice. -/
def shortest (b : Binary) : Decimal :=
  let (n, scale) := b.firstHit b.decimalExponent 18 1
  let digits := (toString n).toList
  ⟨(digits.reverse.dropWhile (· == '0')).reverse, (digits.length : Int) - 1 - scale⟩

end Binary

end DomHost
