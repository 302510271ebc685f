/-!
# Bytes as hexadecimal text

* `hexOfBytes`: two lowercase digits for each byte;
* `bytesOfHex`: reading them back;
* `hexDigit?`: the value of a digit of either case.
-/

namespace DomHost.Text

/-- The value of a hexadecimal digit. -/
def hexDigit? (c : Char) : Option Nat :=
  if '0' ≤ c && c ≤ '9' then some (c.toNat - '0'.toNat)
  else if 'a' ≤ c && c ≤ 'f' then some (c.toNat - 'a'.toNat + 10)
  else if 'A' ≤ c && c ≤ 'F' then some (c.toNat - 'A'.toNat + 10)
  else none

/-- The lowercase hexadecimal digits of a number, without leading zeros. -/
def hex (n : Nat) : String := String.ofList (Nat.toDigits 16 n)

/-- The last `width` hexadecimal digits of a number, in front of `tail`. -/
def hexDigits : (width n : Nat) → (tail : List Char) → List Char
  | 0, _, tail => tail
  | width + 1, n, tail => hexDigits width (n / 16) (Nat.digitChar (n % 16) :: tail)

/-- A number in exactly `width` hexadecimal digits. -/
def hexPadded (width n : Nat) : String := String.ofList (hexDigits width n [])

/-- Two digits for each byte. -/
def hexOfBytes (bytes : List UInt8) : String :=
  String.ofList (bytes.flatMap fun b => hexDigits 2 b.toNat [])

/-- The bytes of pairs of digits, behind those of `acc`, which come last first. -/
def pairBytes (acc : List UInt8) : List Char → List UInt8
  | a :: b :: rest =>
    pairBytes (UInt8.ofNat ((hexDigit? a).getD 0 * 16 + (hexDigit? b).getD 0) :: acc) rest
  | _ => acc.reverse

/-- The bytes that a text of hexadecimal digits writes. -/
def bytesOfHex (s : String) : List UInt8 := pairBytes [] s.toList

end DomHost.Text
