/-!
# The shared buffer

A buffer of whole pages that grows up to a limit. It hands out ranges in order, each at the next
multiple of eight, and can forget that it did. While a view of it is alive it neither grows nor is
written to.

* `SharedBuffer.grow`, `allocate`, `write`, `writeBytes`, `reset`: the operations;
* `SharedBuffer.read`: the bytes of a range;
* `MemoryError`: their faults.
-/

namespace DomHost

/-- The number of bytes of a page. -/
def pageSize : Nat := 65536

/-- A fault of a buffer operation. -/
inductive MemoryError where
  | limitExceeded (requested limit : Nat)
  | busy
  | outOfBounds (offset len size : Nat)
deriving DecidableEq

/-- The name of a fault. -/
def MemoryError.name : MemoryError → String
  | limitExceeded .. => "LimitExceeded"
  | busy => "Busy"
  | outOfBounds .. => "OutOfBounds"

/-- The text of a fault. -/
def MemoryError.message : MemoryError → String
  | limitExceeded requested limit =>
    "growing to " ++ toString requested ++ " pages exceeds the limit of " ++ toString limit
  | busy => "buffer is borrowed by a live view"
  | outOfBounds offset len size =>
    "access of " ++ toString len ++ " bytes at offset " ++ toString offset ++ " is outside the " ++
      toString size ++ "-byte buffer"

/-- A growable buffer. -/
structure SharedBuffer where
  bytes : Array UInt8
  /-- How often it has grown. -/
  epoch : Nat := 0
  /-- The end of the ranges handed out. -/
  nextFree : Nat := 0
  maxPages : Nat
  /-- How many views of it are alive. -/
  views : Nat := 0
deriving DecidableEq

/-- An operation on a buffer; a fault leaves it as it was. -/
abbrev BufferM := EStateM MemoryError SharedBuffer

namespace SharedBuffer

/-- A buffer of some pages of zeros, with a limit that is not below them. -/
def new (pages maxPages : Nat) : SharedBuffer :=
  { bytes := Array.replicate (pages * pageSize) 0, maxPages := max maxPages pages }

/-- The number of bytes. -/
def size (b : SharedBuffer) : Nat := b.bytes.size

/-- The number of pages. -/
def pages (b : SharedBuffer) : Nat := b.size / pageSize

/-- The least multiple of `k` that is not below `n`. -/
def roundUp (n k : Nat) : Nat := (n + (k - 1)) / k * k

/-- Fails while a view is alive. -/
def requireFree : BufferM Unit := do
  if 0 < (← get).views then throw .busy

/-- Grows by some pages of zeros, and tells how many pages there were. -/
def grow (delta : Nat) : BufferM Nat := do
  requireFree
  let b ← get
  let old := b.pages
  if b.maxPages < old + delta then throw (.limitExceeded (old + delta) b.maxPages)
  unless delta = 0 do
    set { b with
      bytes := b.bytes ++ Array.replicate ((old + delta) * pageSize - b.size) 0
      epoch := b.epoch + 1 }
  pure old

/-- Hands out a range behind those handed out before, growing the buffer as far as that takes; tells
where it begins. -/
def allocate (len : Nat) : BufferM Nat := do
  requireFree
  let b ← get
  let offset := roundUp b.nextFree 8
  let stop := offset + len
  if b.size < stop then discard (grow ((stop + (pageSize - 1)) / pageSize - b.pages))
  modify ({ · with nextFree := stop })
  pure offset

/-- Writes bytes over a range, which has to lie in the buffer. -/
def write (offset : Nat) (data : List UInt8) : BufferM Unit := do
  requireFree
  let b ← get
  let stop := offset + data.length
  if b.size < stop then throw (.outOfBounds offset data.length b.size)
  set { b with bytes := b.bytes.extract 0 offset ++ data.toArray ++ b.bytes.extract stop b.size }

/-- Hands out a range and writes bytes over it; tells where they are. -/
def writeBytes (data : List UInt8) : BufferM (Nat × Nat) := do
  let offset ← allocate data.length
  write offset data
  pure (offset, data.length)

/-- Forgets the ranges handed out; the bytes stay. -/
def reset (b : SharedBuffer) : SharedBuffer := { b with nextFree := 0 }

/-- The bytes of a range, if it lies in the buffer. -/
def read (b : SharedBuffer) (offset len : Nat) : Except MemoryError (List UInt8) :=
  if offset + len ≤ b.size then .ok (b.bytes.extract offset (offset + len)).toList
  else .error (.outOfBounds offset len b.size)

end SharedBuffer

end DomHost
