import DomHost.Edit.Instruction

/-!
# The bytes of instructions

An instruction is written as its opcode and its operands one after the other: words of 32 bits with the
lowest byte first, texts in UTF-8 behind their length, lists behind their count, and an optional text
behind a flag.

* `Instruction.opcode`, `propertyCode`: the codes;
* `Wire.word`, `Wire.text`, `Wire.ids`, `Wire.descriptor`: the operands;
* `Instruction.encode`, `Instruction.encodeAll`: the bytes.
-/

namespace DomHost

/-- Bytes in order. -/
abbrev Bytes := List UInt8

/-- The code of an instruction. -/
def Instruction.opcode : Instruction → UInt8
  | createElement .. => 0x01
  | createText .. => 0x02
  | createPlaceholder .. => 0x03
  | loadTemplate .. => 0x04
  | saveTemplate .. => 0x05
  | bindElementById .. => 0x06
  | setAttribute .. => 0x10
  | removeAttribute .. => 0x11
  | toggleAttribute .. => 0x12
  | setStyle .. => 0x13
  | setProperty .. => 0x14
  | appendChildren .. => 0x20
  | insertBefore .. => 0x21
  | insertAfter .. => 0x22
  | remove .. => 0x23
  | replaceWith .. => 0x24
  | freeId .. => 0x25
  | addListener .. => 0x30
  | removeListener .. => 0x31

namespace Wire

/-- The code of a property. -/
def propertyCode : Property → UInt8
  | .className => 0
  | .textContent => 1
  | .innerHtml => 2
  | .value => 3
  | .checked => 4

/-- A word, lowest byte first. -/
def word (n : UInt32) : Bytes :=
  [n.toUInt8, (n >>> 8).toUInt8, (n >>> 16).toUInt8, (n >>> 24).toUInt8]

/-- A length or count, of which a word holds the lowest 32 bits. -/
def count (n : Nat) : Bytes := word (UInt32.ofNat n)

/-- A text: its length in bytes, and its UTF-8. -/
def text (s : String) : Bytes := count s.utf8ByteSize ++ s.toUTF8.data.toList

/-- A flag. -/
def flag (b : Bool) : Bytes := [if b then 1 else 0]

/-- A text that may be missing. -/
def optionalText : Option String → Bytes
  | some s => 1 :: text s
  | none => [0]

/-- A flag that may be missing. -/
def optionalFlag : Option Bool → Bytes
  | none => [0]
  | some false => [1]
  | some true => [2]

/-- A list of ids. -/
def ids (l : List NodeId) : Bytes := count l.length ++ l.flatMap fun id => word id.number

/-- An attribute of a template. -/
def templateAttribute (a : TemplateAttribute) : Bytes := text a.name ++ text a.value ++ optionalText a.ns

/-- A node of a template. -/
def descriptor : Descriptor → Bytes
  | .element tag ns attributes childCount slot =>
    0 :: (text tag ++ optionalText ns ++ (count attributes.length ++ attributes.flatMap templateAttribute) ++
      word childCount ++ flag slot)
  | .text t => 1 :: text t
  | .dynamicText => [2]
  | .placeholder => [3]

end Wire

namespace Instruction

open Wire

/-- The operands of an instruction. -/
def operands : Instruction → Bytes
  | createElement id tag ns => word id.number ++ text tag ++ optionalText ns
  | createText id t => word id.number ++ text t
  | createPlaceholder id | remove id | freeId id => word id.number
  | loadTemplate template id slots => word template ++ word id.number ++ ids slots
  | saveTemplate template nodes =>
    word template ++ (count nodes.length ++ nodes.flatMap descriptor)
  | bindElementById id domId => word id.number ++ text domId
  | setAttribute id name value ns => word id.number ++ text name ++ text value ++ optionalText ns
  | removeAttribute id name ns => word id.number ++ text name ++ optionalText ns
  | toggleAttribute id name force => word id.number ++ text name ++ optionalFlag force
  | setStyle id property value => word id.number ++ text property ++ text value
  | setProperty id property value => word id.number ++ [propertyCode property] ++ text value
  | appendChildren id nodes | insertBefore id nodes | insertAfter id nodes | replaceWith id nodes =>
    word id.number ++ ids nodes
  | addListener id name callback capture | removeListener id name callback capture =>
    word id.number ++ text name ++ word callback.number ++ flag capture

/-- The bytes of an instruction. -/
def encode (i : Instruction) : Bytes := i.opcode :: i.operands

/-- The bytes of instructions one after the other. -/
def encodeAll (is : List Instruction) : Bytes := is.flatMap encode

end Instruction

end DomHost
