import DomHost.Json.Print
import DomHost.Memory.Buffer
import DomHost.Text.Hex

/-!
# Views of the shared buffer

A bridge takes typed views of a buffer and counts how often what it saw had changed since the view
before. A view reads little-endian scalars.

* `MemoryBridge`, `MemoryBridge.observe`: the count of refreshes;
* `Scalar`, `ScalarType.decode`: scalars from bytes;
* `SharedBuffer.element?`, `SharedBuffer.scalarAt`: reading by index and by offset;
* `Scalar.toJson`: an element of a view as JSON.
-/

namespace DomHost

/-- The types of the elements of a view. -/
inductive ScalarType where
  | u8 | u16 | u32 | i32 | f32 | f64
deriving DecidableEq

/-- An element of a view. Floating-point numbers are kept as their bits, so that no NaN is lost. -/
inductive Scalar where
  | u8 (x : UInt8)
  | u16 (x : UInt16)
  | u32 (x : UInt32)
  | i32 (x : Int32)
  | f32 (bits : UInt32)
  | f64 (bits : UInt64)
deriving DecidableEq

/-- An element as JSON: an integer, or the bits of a floating-point number, highest first. -/
def Scalar.toJson : Scalar → String
  | u8 x => toString x.toNat
  | u16 x => toString x.toNat
  | u32 x => toString x.toNat
  | i32 x => toString x.toInt
  | f32 bits => Json.quote (Text.hexPadded 8 bits.toNat)
  | f64 bits => Json.quote (Text.hexPadded 16 bits.toNat)

/-- The number that bytes write, lowest first. -/
def littleEndian : List UInt8 → Nat
  | [] => 0
  | b :: rest => b.toNat + 256 * littleEndian rest

namespace ScalarType

/-- The type with a name. -/
def ofName? : String → Option ScalarType
  | "u8" => some u8
  | "u16" => some u16
  | "u32" => some u32
  | "i32" => some i32
  | "f32" => some f32
  | "f64" => some f64
  | _ => none

/-- The number of bytes of an element. -/
def width : ScalarType → Nat
  | u8 => 1
  | u16 => 2
  | u32 | i32 | f32 => 4
  | f64 => 8

/-- The element that its bytes write. -/
def decode (t : ScalarType) (bytes : List UInt8) : Scalar :=
  let n := littleEndian bytes
  match t with
  | u8 => .u8 n.toUInt8
  | u16 => .u16 n.toUInt16
  | u32 => .u32 n.toUInt32
  | i32 => .i32 n.toUInt32.toInt32
  | f32 => .f32 n.toUInt32
  | f64 => .f64 n.toUInt64

end ScalarType

namespace SharedBuffer

/-- The number of whole elements in a buffer. -/
def elements (b : SharedBuffer) (t : ScalarType) : Nat := b.size / t.width

/-- The element at a byte offset, aligned or not. -/
def scalarAt (b : SharedBuffer) (t : ScalarType) (offset : Nat) : Except MemoryError Scalar :=
  (b.read offset t.width).map t.decode

/-- The element with an index. -/
def element? (b : SharedBuffer) (t : ScalarType) (index : Nat) : Option Scalar :=
  (b.scalarAt t (index * t.width)).toOption

end SharedBuffer

/-- A buffer with what was last seen of it. -/
structure MemoryBridge where
  buffer : SharedBuffer
  /-- The size and the epoch that the last view saw. -/
  observed : Option (Nat × Nat) := none
  /-- How many views found something else than the view before. -/
  refreshes : Nat := 0
deriving DecidableEq

namespace MemoryBridge

/-- Takes a view: what has changed since the last one counts as a refresh. -/
def observe (m : MemoryBridge) : MemoryBridge :=
  let now := (m.buffer.size, m.buffer.epoch)
  if m.observed = some now then m
  else { m with observed := some now, refreshes := m.refreshes + 1 }

/-- Turns to another buffer, of which nothing has been seen. -/
def replaceBuffer (m : MemoryBridge) (buffer : SharedBuffer) : MemoryBridge :=
  { m with buffer, observed := none }

end MemoryBridge

end DomHost
