import DomHost.Proofs.Edit.Reads

/-!
# Instructions are read as they were written

A window that holds the bytes of instructions is read as these instructions, up to its end.

* `Instruction.Fits`: words hold the lengths in an instruction;
* **`Decode.reads_instruction`**: one instruction;
* `Cursor.next?_of_error`: nothing comes behind a fault;
* **`Cursor.items_encodeAll`**: the items of a window;
* **`Cursor.readAll_encodeAll`**: all of them, when the bytes stand in a buffer.
-/

namespace DomHost

/-- Do words hold the lengths of all texts and lists of an instruction? -/
def Instruction.Fits : Instruction → Prop
  | createElement _ tag ns => FitsText tag ∧ ∀ ns' ∈ ns, FitsText ns'
  | createText _ t => FitsText t
  | createPlaceholder _ | remove _ | freeId _ => True
  | loadTemplate _ _ slots => slots.length < 4294967296
  | saveTemplate _ nodes => nodes.length < 4294967296 ∧ ∀ d ∈ nodes, d.Fits
  | bindElementById _ domId => FitsText domId
  | setAttribute _ name value ns => FitsText name ∧ FitsText value ∧ ∀ ns' ∈ ns, FitsText ns'
  | removeAttribute _ name ns => FitsText name ∧ ∀ ns' ∈ ns, FitsText ns'
  | toggleAttribute _ name _ => FitsText name
  | setStyle _ property value => FitsText property ∧ FitsText value
  | setProperty _ _ value => FitsText value
  | appendChildren _ nodes | insertBefore _ nodes | insertAfter _ nodes | replaceWith _ nodes =>
    nodes.length < 4294967296
  | addListener _ name _ _ | removeListener _ name _ _ => FitsText name

namespace Decode

theorem propertyOfCode?_propertyCode (p : Property) :
    propertyOfCode? (Wire.propertyCode p) = some p := by
  cases p <;> rfl

theorem reads_property (p : Property) : Reads property [Wire.propertyCode p] p := by
  refine Reads.position fun offset => (reads_byte _).last ?_
  rw [propertyOfCode?_propertyCode]
  exact Reads.pure p

theorem reads_onNodes (make : NodeId → List NodeId → Instruction) (id : NodeId) {l : List NodeId}
    (hl : l.length < 4294967296) :
    Reads (onNodes make) (Wire.word id.number ++ Wire.ids l) (make id l) :=
  (reads_id id).bind (reads_ids hl).result

theorem reads_listener (make : NodeId → String → CallbackId → Bool → Instruction) (id : NodeId)
    {name : String} (hname : FitsText name) (callback : CallbackId) (capture : Bool) :
    Reads (listener make)
      (Wire.word id.number ++ (Wire.text name ++ (Wire.word callback.number ++ Wire.flag capture)))
      (make id name callback capture) :=
  (reads_id id).bind ((reads_text hname).bind ((reads_word _).bind (reads_flag capture).result))

/-- **An instruction is read as it was written.** -/
theorem reads_instruction {i : Instruction} (h : i.Fits) : Reads instruction i.encode i := by
  have hencode : i.encode = [i.opcode] ++ i.operands := rfl
  rw [hencode]
  refine Reads.position fun offset => (reads_byte i.opcode).bind ?_
  cases i with
  | createElement id tag ns =>
    rw [Instruction.operands, List.append_assoc]
    exact (reads_id id).bind ((reads_text h.1).bind (reads_optionalText h.2).result)
  | createText id t => exact (reads_id id).bind (reads_text h).result
  | createPlaceholder id => exact (reads_id id).result
  | loadTemplate template id slots =>
    rw [Instruction.operands, List.append_assoc]
    exact (reads_word template).bind ((reads_id id).bind (reads_ids h).result)
  | saveTemplate template nodes => exact (reads_word template).bind (reads_descriptors h.1 h.2).result
  | bindElementById id domId => exact (reads_id id).bind (reads_text h).result
  | setAttribute id name value ns =>
    rw [Instruction.operands, List.append_assoc, List.append_assoc]
    obtain ⟨hname, hvalue, hns⟩ := h
    exact (reads_id id).bind
      ((reads_text hname).bind ((reads_text hvalue).bind (reads_optionalText hns).result))
  | removeAttribute id name ns =>
    rw [Instruction.operands, List.append_assoc]
    exact (reads_id id).bind ((reads_text h.1).bind (reads_optionalText h.2).result)
  | toggleAttribute id name force =>
    rw [Instruction.operands, List.append_assoc]
    exact (reads_id id).bind ((reads_text h).bind (reads_optionalFlag force).result)
  | setStyle id property value =>
    rw [Instruction.operands, List.append_assoc]
    exact (reads_id id).bind ((reads_text h.1).bind (reads_text h.2).result)
  | setProperty id property value =>
    rw [Instruction.operands, List.append_assoc]
    exact (reads_id id).bind ((reads_property property).bind (reads_text h).result)
  | appendChildren id nodes => exact reads_onNodes .appendChildren id h
  | insertBefore id nodes => exact reads_onNodes .insertBefore id h
  | insertAfter id nodes => exact reads_onNodes .insertAfter id h
  | remove id => exact (reads_id id).result
  | replaceWith id nodes => exact reads_onNodes .replaceWith id h
  | freeId id => exact (reads_id id).result
  | addListener id name callback capture =>
    rw [Instruction.operands, List.append_assoc, List.append_assoc]
    exact reads_listener .addListener id h callback capture
  | removeListener id name callback capture =>
    rw [Instruction.operands, List.append_assoc, List.append_assoc]
    exact reads_listener .removeListener id h callback capture

end Decode

namespace Cursor

open Instruction

variable {b : SharedBuffer} {c d : Cursor} {x : Except DecodeError Instruction} {i : Instruction}
  {is : List Instruction} {e : DecodeError} {offset pos : Nat}

/-- The items of instructions that stand one after the other, each with the offset behind it. -/
def itemsFrom (pos : Nat) : List Instruction → List (Except DecodeError Instruction × Nat)
  | [] => []
  | i :: is => (.ok i, pos + i.encode.length) :: itemsFrom (pos + i.encode.length) is

theorem map_itemsFrom (pos : Nat) (is : List Instruction) :
    (itemsFrom pos is).map (·.1) = is.map .ok := by
  induction is generalizing pos with
  | nil => rfl
  | cons i is ih => rw [itemsFrom, List.map_cons, List.map_cons, ih]

theorem length_encode_pos (i : Instruction) : 0 < i.encode.length := Nat.succ_pos _

/-- Each instruction takes a byte at least. -/
theorem length_le_encodeAll (is : List Instruction) : is.length ≤ (encodeAll is).length := by
  induction is with
  | nil => exact Nat.le_refl 0
  | cons i is ih =>
    have hi := length_encode_pos i
    rw [encodeAll, List.flatMap_cons, List.length_append, List.length_cons]
    rw [encodeAll] at ih
    omega

/-! ## One item -/

theorem next?_eq_none_iff : c.next? = none ↔ c.failed = true ∨ c.atEnd = true := by
  unfold next?
  split
  · simp_all
  · split <;> simp_all

/-- A reader that has neither failed nor come to the end reads an instruction. -/
theorem next?_of_lt (hfailed : c.failed = false) (hlt : c.pos < c.stop) :
    c.next? = match Decode.instruction c with
      | .ok i c => some (.ok i, c)
      | .error e c => some (.error e, { c with failed := true }) := by
  have hend : c.atEnd = false := decide_eq_false (Nat.not_le.mpr hlt)
  rw [next?, hfailed, hend]
  rfl

theorem open_of_next? (h : c.next? = some (x, d)) : c.failed = false ∧ c.pos < c.stop := by
  have hsome : ¬ (c.failed = true ∨ c.atEnd = true) := by
    rw [← next?_eq_none_iff, h]
    exact Option.some_ne_none _
  rw [not_or, Bool.not_eq_true, atEnd, decide_eq_true_iff, Nat.not_le] at hsome
  exact hsome

theorem next?_eq_ok_iff : c.next? = some (.ok i, d) ↔
    (c.failed = false ∧ c.pos < c.stop) ∧ Decode.instruction c = .ok i d := by
  constructor
  · intro h
    obtain ⟨hfailed, hlt⟩ := open_of_next? h
    rw [next?_of_lt hfailed hlt] at h
    refine ⟨⟨hfailed, hlt⟩, ?_⟩
    split at h
    · cases h
      assumption
    · cases h
  · rintro ⟨⟨hfailed, hlt⟩, h⟩
    rw [next?_of_lt hfailed hlt, h]

theorem next?_eq_error_iff : c.next? = some (.error e, d) ↔
    (c.failed = false ∧ c.pos < c.stop) ∧
      ∃ c', Decode.instruction c = .error e c' ∧ d = { c' with failed := true } := by
  constructor
  · intro h
    obtain ⟨hfailed, hlt⟩ := open_of_next? h
    rw [next?_of_lt hfailed hlt] at h
    refine ⟨⟨hfailed, hlt⟩, ?_⟩
    split at h
    · cases h
    · cases h
      exact ⟨_, ‹_›, rfl⟩
  · rintro ⟨⟨hfailed, hlt⟩, c', h, rfl⟩
    rw [next?_of_lt hfailed hlt, h]

/-- **Nothing comes behind a fault**, whatever is left of the window. -/
theorem next?_of_error (h : c.next? = some (.error e, d)) : d.next? = none := by
  obtain ⟨-, -, _, -, rfl⟩ := next?_eq_error_iff.mp h
  exact next?_eq_none_iff.mpr (.inl rfl)

/-- An instruction that comes next is the next item. -/
theorem next?_encode (h : i.Fits) (hfailed : c.failed = false) (hahead : c.Ahead i.encode) :
    c.next? = some (.ok i, c.skip i.encode.length) := by
  have hi := length_encode_pos i
  obtain ⟨hstop, -⟩ := hahead.length_le
  exact next?_eq_ok_iff.mpr ⟨⟨hfailed, by omega⟩, Decode.reads_instruction h c hahead⟩

/-! ## All items -/

theorem items_of_none (h : c.next? = none) (rounds : Nat) : c.items rounds = ([], c) := by
  cases rounds with
  | zero => rfl
  | succ rounds => rw [items, h]

theorem items_of_some (h : c.next? = some (x, d)) (rounds : Nat) :
    c.items (rounds + 1) = ((x, d.pos) :: (d.items rounds).1, (d.items rounds).2) := by
  rw [items, h]

/-- **The bytes of instructions are read as these instructions, whatever stands behind them.** -/
theorem items_encodeAll (h : ∀ i ∈ is, i.Fits) (hfailed : c.failed = false)
    (hahead : c.Ahead (encodeAll is)) (rounds : Nat) :
    c.items (is.length + rounds) =
      (itemsFrom c.pos is ++ ((c.skip (encodeAll is).length).items rounds).1,
        ((c.skip (encodeAll is).length).items rounds).2) := by
  induction is generalizing c with
  | nil =>
    rw [List.length_nil, Nat.zero_add]
    rfl
  | cons i is ih =>
    obtain ⟨hi, his⟩ := List.forall_mem_cons.mp h
    have hcons : encodeAll (i :: is) = i.encode ++ encodeAll is := List.flatMap_cons
    have hrounds : (i :: is).length + rounds = is.length + rounds + 1 := by
      rw [List.length_cons]
      omega
    rw [hcons] at hahead ⊢
    obtain ⟨hfirst, hrest⟩ := hahead.append
    have hnext := next?_encode hi hfailed hfirst
    rw [hrounds, items_of_some hnext, ih (c := c.skip i.encode.length) his hfailed hrest, skip_skip,
      List.length_append]
    rfl

/-- Bytes that stand in a buffer come next in a window on them. -/
theorem ahead_new {bs : Bytes} {len : Nat} (hb : b.size ≤ maxOffset) (hlen : bs.length ≤ len)
    (hread : b.read offset bs.length = .ok bs) : (new b offset len).Ahead bs := by
  refine .of_read ?_ hread
  unfold SharedBuffer.read at hread
  split at hread
  · simp only [new]
    omega
  · cases hread

/-- **A window on the bytes of instructions is read as these instructions, up to its end.** -/
theorem readAll_eq_itemsFrom (hb : b.size ≤ maxOffset) (h : ∀ i ∈ is, i.Fits)
    (hread : b.read offset (encodeAll is).length = .ok (encodeAll is)) :
    (new b offset (encodeAll is).length).readAll = (itemsFrom offset is,
      (new b offset (encodeAll is).length).skip (encodeAll is).length) := by
  have hle := length_le_encodeAll is
  have hahead := ahead_new hb (Nat.le_refl _) hread
  obtain ⟨hstop, -⟩ := hahead.length_le
  obtain ⟨rounds, hrounds⟩ := Nat.exists_eq_add_of_le (Nat.le_trans hle hstop)
  set c := new b offset (encodeAll is).length
  have hend : (c.skip (encodeAll is).length).next? = none := by
    refine next?_eq_none_iff.mpr (.inr (decide_eq_true ?_))
    change min (offset + (encodeAll is).length) maxOffset ≤ offset + (encodeAll is).length
    exact Nat.min_le_left _ _
  rw [readAll, hrounds, items_encodeAll h rfl hahead, items_of_none hend, List.append_nil]
  rfl

/-- **Instructions whose bytes stand in a buffer are read from there, up to the end of their window.** -/
theorem readAll_encodeAll {b : SharedBuffer} {offset : Nat} (hb : b.size ≤ maxOffset)
    (h : ∀ i ∈ is, i.Fits)
    (hread : b.read offset (encodeAll is).length = .ok (encodeAll is)) :
    (Cursor.new b offset (encodeAll is).length).readAll.1.map (·.1) = is.map .ok ∧
      (Cursor.new b offset (encodeAll is).length).readAll.2.pos = offset + (encodeAll is).length ∧
      (Cursor.new b offset (encodeAll is).length).readAll.2.next? = none := by
  rw [readAll_eq_itemsFrom hb h hread]
  refine ⟨map_itemsFrom offset is, rfl, next?_eq_none_iff.mpr (.inr (decide_eq_true ?_))⟩
  exact Nat.min_le_left _ _

/-- A text and a template, behind two other bytes. -/
theorem exists_readAll_encodeAll : ∃ (b : SharedBuffer) (is : List Instruction), is.length = 2 ∧
    b.size ≤ maxOffset ∧ (∀ i ∈ is, i.Fits) ∧
    b.read 2 (encodeAll is).length = .ok (encodeAll is) ∧
    (Cursor.new b 2 (encodeAll is).length).readAll.1.map (·.1) = is.map .ok ∧
    (Cursor.new b 2 (encodeAll is).length).readAll.2.pos = 2 + (encodeAll is).length ∧
    (Cursor.new b 2 (encodeAll is).length).readAll.2.next? = none := by
  let is : List Instruction := [.createText ⟨1⟩ "hé", .saveTemplate 7 [.text "x", .dynamicText]]
  let b : SharedBuffer := { bytes := (0 :: 1 :: encodeAll is).toArray, maxPages := 1 }
  have hb : b.size ≤ maxOffset := by decide +kernel
  have htext : FitsText "hé" ∧ FitsText "x" := by decide
  have h : ∀ i ∈ is, i.Fits := by
    simp [is, Instruction.Fits, Descriptor.Fits, htext]
  have hread : b.read 2 (encodeAll is).length = .ok (encodeAll is) := by decide +kernel
  exact ⟨b, is, rfl, hb, h, hread, readAll_encodeAll hb h hread⟩

end Cursor

end DomHost
