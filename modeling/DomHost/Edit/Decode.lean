import DomHost.Edit.Encode
import DomHost.Memory.View
import DomHost.Text.Hex

/-!
# Reading instructions

A cursor reads instructions from a window of a buffer. It has the whole buffer before it; what keeps it in the
window is that every operand is checked against the end of the window before it is read. An operand that does
not fit is reported by that check, and one that the window promises but the buffer does not hold by the buffer.
The first fault ends the reading, and the cursor stays where it was met.

* `DecodeError`: the faults;
* `Cursor`, `Cursor.new`: a place in a buffer, and the end of the window;
* `Decode.instruction`: one instruction;
* `Cursor.next?`, `Cursor.readAll`: one item, and all of them.
-/

namespace DomHost

/-- A fault in a stream of instructions. -/
inductive DecodeError where
  | unknownOpcode (opcode : UInt8) (offset : Nat)
  | truncated (offset needed : Nat)
  | invalidUtf8 (offset : Nat)
  | invalidFlag (value : UInt8) (offset : Nat)
  | unknownProperty (code : UInt8) (offset : Nat)
  | unknownDescriptor (kind : UInt8) (offset : Nat)
  | memory (fault : MemoryError)
deriving DecidableEq

/-- The name of a fault. -/
def DecodeError.name : DecodeError → String
  | unknownOpcode .. => "UnknownOpcode"
  | truncated .. => "Truncated"
  | invalidUtf8 _ => "InvalidUtf8"
  | invalidFlag .. => "InvalidFlag"
  | unknownProperty .. => "UnknownProperty"
  | unknownDescriptor .. => "UnknownDescriptor"
  | memory fault => "Memory." ++ fault.name

/-- The text of a fault. -/
def DecodeError.message : DecodeError → String
  | unknownOpcode opcode offset =>
    "unknown opcode 0x" ++ Text.hexPadded 2 opcode.toNat ++ " at offset " ++ toString offset
  | truncated offset needed =>
    "stream truncated at offset " ++ toString offset ++ ": " ++ toString needed ++
      " more bytes expected"
  | invalidUtf8 offset => "invalid UTF-8 in string at offset " ++ toString offset
  | invalidFlag value offset =>
    "invalid flag byte " ++ toString value.toNat ++ " at offset " ++ toString offset
  | unknownProperty code offset =>
    "unknown property code " ++ toString code.toNat ++ " at offset " ++ toString offset
  | unknownDescriptor kind offset =>
    "unknown template descriptor kind " ++ toString kind.toNat ++ " at offset " ++ toString offset
  | memory fault => fault.message

/-- A reader of a window of a buffer. -/
structure Cursor where
  buffer : SharedBuffer
  /-- The offset of the next byte. -/
  pos : Nat
  /-- The end of the window. -/
  stop : Nat
  /-- Has there been a fault? -/
  failed : Bool := false
deriving DecidableEq

/-- The largest offset. -/
def maxOffset : Nat := 18446744073709551615

namespace Cursor

/-- A cursor at the start of a window, which does not go beyond the largest offset. -/
def new (b : SharedBuffer) (offset len : Nat) : Cursor := ⟨b, offset, min (offset + len) maxOffset, false⟩

/-- Has the whole window been read? -/
def atEnd (c : Cursor) : Bool := c.stop ≤ c.pos

/-- The cursor so many bytes further on. -/
def skip (c : Cursor) (n : Nat) : Cursor := { c with pos := c.pos + n }

end Cursor

/-- A reader of operands. -/
abbrev Decode := EStateM DecodeError Cursor

namespace Decode

/-! ## Operands -/

/-- Fails unless the window has so many bytes left. -/
def ensure (needed : Nat) : Decode Unit := do
  let c ← get
  if c.stop - c.pos < needed then throw (.truncated c.pos needed)

/-- The next bytes, which the window and the buffer have to hold. -/
def peek (n : Nat) : Decode Bytes := do
  ensure n
  let c ← get
  match c.buffer.read c.pos n with
  | .ok bytes => pure bytes
  | .error e => throw (.memory e)

/-- Reads bytes. -/
def take (n : Nat) : Decode Bytes := do
  let bytes ← peek n
  modify (·.skip n)
  pure bytes

/-- The offset of the next byte. -/
def position : Decode Nat := do pure (← get).pos

/-- Reads a byte. -/
def byte : Decode UInt8 := do
  match ← take 1 with
  | [b] => pure b
  | _ => pure 0

/-- Reads a word. -/
def word : Decode UInt32 := do pure (littleEndian (← take 4)).toUInt32

/-- Reads an id. -/
def id : Decode NodeId := do pure ⟨← word⟩

/-- Reads a text. The bytes of one that is not valid are not passed. -/
def text : Decode String := do
  let len ← word
  let bytes ← peek len.toNat
  match String.fromUTF8? bytes.toByteArray with
  | some s =>
    modify (·.skip len.toNat)
    pure s
  | none => throw (.invalidUtf8 (← position))

/-- Reads a flag. -/
def flag : Decode Bool := do
  let offset ← position
  match ← byte with
  | 0 => pure false
  | 1 => pure true
  | b => throw (.invalidFlag b offset)

/-- Reads a text that may be missing. -/
def optionalText : Decode (Option String) := do
  if ← flag then pure (some (← text)) else pure none

/-- Reads a flag that may be missing. -/
def optionalFlag : Decode (Option Bool) := do
  let offset ← position
  match ← byte with
  | 0 => pure none
  | 1 => pure (some false)
  | 2 => pure (some true)
  | b => throw (.invalidFlag b offset)

/-- Reads so many operands of a kind, behind those of `acc`, which come last first. -/
def many {α : Type} (read : Decode α) : (count : Nat) → (acc : List α) → Decode (List α)
  | 0, acc => pure acc.reverse
  | n + 1, acc => do many read n ((← read) :: acc)

/-- Reads a list of ids, all of which have to fit the window. -/
def ids : Decode (List NodeId) := do
  let n := (← word).toNat
  ensure (n * 4)
  many id n []

/-- Reads an attribute of a template. -/
def templateAttribute : Decode TemplateAttribute := do
  let name ← text
  let value ← text
  pure ⟨name, value, ← optionalText⟩

/-- Reads a node of a template. -/
def descriptor : Decode Descriptor := do
  let offset ← position
  match ← byte with
  | 0 =>
    let tag ← text
    let ns ← optionalText
    let n ← word
    let attributes ← many templateAttribute n.toNat []
    let childCount ← word
    pure (.element tag ns attributes childCount (← flag))
  | 1 => pure (.text (← text))
  | 2 => pure .dynamicText
  | 3 => pure .placeholder
  | b => throw (.unknownDescriptor b offset)

/-- Reads a list of nodes of a template, each of which takes a byte at least. -/
def descriptors : Decode (List Descriptor) := do
  let n := (← word).toNat
  ensure n
  many descriptor n []

/-- The property with a code. -/
def propertyOfCode? : UInt8 → Option Property
  | 0 => some .className
  | 1 => some .textContent
  | 2 => some .innerHtml
  | 3 => some .value
  | 4 => some .checked
  | _ => none

/-- Reads a property. -/
def property : Decode Property := do
  let offset ← position
  let code ← byte
  match propertyOfCode? code with
  | some p => pure p
  | none => throw (.unknownProperty code offset)

/-! ## Instructions -/

/-- Reads the operands of a listener instruction. -/
def listener (make : NodeId → String → CallbackId → Bool → Instruction) : Decode Instruction := do
  let target ← id
  let name ← text
  let callback ← word
  pure (make target name ⟨callback⟩ (← flag))

/-- Reads the operands of an instruction on a list of nodes. -/
def onNodes (make : NodeId → List NodeId → Instruction) : Decode Instruction := do
  let target ← id
  pure (make target (← ids))

/-- Reads an instruction. -/
def instruction : Decode Instruction := do
  let offset ← position
  match ← byte with
  | 0x01 =>
    let target ← id
    let tag ← text
    pure (.createElement target tag (← optionalText))
  | 0x02 =>
    let target ← id
    pure (.createText target (← text))
  | 0x03 => pure (.createPlaceholder (← id))
  | 0x04 =>
    let template ← word
    let target ← id
    pure (.loadTemplate template target (← ids))
  | 0x05 =>
    let template ← word
    pure (.saveTemplate template (← descriptors))
  | 0x06 =>
    let target ← id
    pure (.bindElementById target (← text))
  | 0x10 =>
    let target ← id
    let name ← text
    let value ← text
    pure (.setAttribute target name value (← optionalText))
  | 0x11 =>
    let target ← id
    let name ← text
    pure (.removeAttribute target name (← optionalText))
  | 0x12 =>
    let target ← id
    let name ← text
    pure (.toggleAttribute target name (← optionalFlag))
  | 0x13 =>
    let target ← id
    let name ← text
    pure (.setStyle target name (← text))
  | 0x14 =>
    let target ← id
    let p ← property
    pure (.setProperty target p (← text))
  | 0x20 => onNodes .appendChildren
  | 0x21 => onNodes .insertBefore
  | 0x22 => onNodes .insertAfter
  | 0x23 => pure (.remove (← id))
  | 0x24 => onNodes .replaceWith
  | 0x25 => pure (.freeId (← id))
  | 0x30 => listener .addListener
  | 0x31 => listener .removeListener
  | opcode => throw (.unknownOpcode opcode offset)

end Decode

namespace Cursor

/-- The next instruction or the fault in its place, and the cursor behind it; nothing behind a fault and at the
end of the window. -/
def next? (c : Cursor) : Option (Except DecodeError Instruction × Cursor) :=
  if c.failed || c.atEnd then none
  else
    match Decode.instruction c with
    | .ok i c => some (.ok i, c)
    | .error e c => some (.error e, { c with failed := true })

/-- The items of a window, so many at most, each with the offset behind it. -/
def items (c : Cursor) : (rounds : Nat) → List (Except DecodeError Instruction × Nat) × Cursor
  | 0 => ([], c)
  | rounds + 1 =>
    match c.next? with
    | none => ([], c)
    | some (x, c) =>
      let (rest, last) := c.items rounds
      ((x, c.pos) :: rest, last)

/-- All items of a window, and the cursor behind the last. An instruction takes a byte at least and nothing comes
behind a fault, so that the rounds are not used up before the window. -/
def readAll (c : Cursor) : List (Except DecodeError Instruction × Nat) × Cursor := c.items (c.stop - c.pos)

end Cursor

end DomHost
