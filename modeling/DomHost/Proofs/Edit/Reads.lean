import DomHost.Edit.Decode
import DomHost.Proofs.Outcome
import Mathlib.Data.List.Basic

/-!
# Readers that take what is written

A reader takes bytes for a value if it gets that value wherever these bytes come next, and leaves them
behind. Readers in a row take bytes in a row.

* `Cursor.rest`, `Cursor.Ahead`: what is left of a window, and the bytes that come next in it;
* `Decode.peek_eq`: how bytes are read;
* `Decode.Reads`: a reader takes bytes for a value;
* **`Decode.Reads.bind`**, **`Decode.Reads.many`**: readers in a row;
* `Decode.reads_word`, `Decode.reads_text`, `Decode.reads_ids`: operands;
* **`Decode.reads_descriptor`**: a node of a template.
-/

namespace DomHost

/-! ## What can be written -/

/-- Does a word hold the length of a text? -/
def FitsText (s : String) : Prop := s.utf8ByteSize < 4294967296

instance (s : String) : Decidable (FitsText s) := inferInstanceAs (Decidable (_ < _))

/-- Do words hold the lengths of the texts of an attribute? -/
def TemplateAttribute.Fits (a : TemplateAttribute) : Prop :=
  FitsText a.name ∧ FitsText a.value ∧ ∀ ns ∈ a.ns, FitsText ns

/-- Do words hold the lengths of all texts and lists of a node of a template? -/
def Descriptor.Fits : Descriptor → Prop
  | element tag ns attributes _ _ =>
    FitsText tag ∧ (∀ ns' ∈ ns, FitsText ns') ∧ attributes.length < 4294967296 ∧
      ∀ a ∈ attributes, a.Fits
  | text t => FitsText t
  | dynamicText | placeholder => True

/-! ## What is left of a window -/

theorem SharedBuffer.read_of_le {b : SharedBuffer} {offset len : Nat} (h : offset + len ≤ b.size) :
    b.read offset len = .ok ((b.bytes.toList.drop offset).take len) := by
  rw [read, if_pos h, Array.toList_extract, List.extract_eq_take_drop, Nat.add_sub_cancel_left]

namespace Cursor

variable {c : Cursor} {bs cs : Bytes} {n : Nat}

/-- What is left of the window, as far as the buffer holds it. -/
def rest (c : Cursor) : Bytes := (c.buffer.bytes.toList.drop c.pos).take (c.stop - c.pos)

theorem length_rest (c : Cursor) : c.rest.length = min (c.stop - c.pos) (c.buffer.size - c.pos) := by
  rw [rest, List.length_take, List.length_drop, Array.length_toList, SharedBuffer.size]

theorem rest_skip (c : Cursor) (n : Nat) : (c.skip n).rest = c.rest.drop n := by
  simp only [rest, skip, List.drop_take, List.drop_drop, Nat.sub_add_eq]

theorem skip_skip (c : Cursor) (m n : Nat) : (c.skip m).skip n = c.skip (m + n) := by
  simp only [skip, Nat.add_assoc]

/-- The buffer holds what is left of the window. -/
theorem read_eq (hstop : n ≤ c.stop - c.pos) (hsize : c.pos + n ≤ c.buffer.size) :
    c.buffer.read c.pos n = .ok (c.rest.take n) := by
  rw [SharedBuffer.read_of_le hsize, rest, List.take_take, Nat.min_eq_left hstop]

/-- Bytes that come next: they begin what is left of the window. -/
structure Ahead (c : Cursor) (bs : Bytes) : Prop where
  inBuffer : c.pos ≤ c.buffer.size
  isPrefix : bs <+: c.rest

namespace Ahead

theorem length_le (h : c.Ahead bs) :
    bs.length ≤ c.stop - c.pos ∧ c.pos + bs.length ≤ c.buffer.size := by
  have hlen := h.isPrefix.length_le
  have hin := h.inBuffer
  rw [length_rest] at hlen
  omega

theorem take_rest (h : c.Ahead bs) : c.rest.take bs.length = bs :=
  (List.prefix_iff_eq_take.mp h.isPrefix).symm

/-- Bytes that come next are what the buffer holds there. -/
theorem read (h : c.Ahead bs) : c.buffer.read c.pos bs.length = .ok bs := by
  obtain ⟨hstop, hsize⟩ := h.length_le
  rw [read_eq hstop hsize, h.take_rest]

theorem of_read (hstop : bs.length ≤ c.stop - c.pos) (hread : c.buffer.read c.pos bs.length = .ok bs) :
    c.Ahead bs := by
  by_cases hsize : c.pos + bs.length ≤ c.buffer.size
  · rw [read_eq hstop hsize] at hread
    exact ⟨by omega, List.prefix_iff_eq_take.mpr (Except.ok.inj hread).symm⟩
  · rw [SharedBuffer.read, if_neg hsize] at hread
    cases hread

/-- **Of bytes that come next the first come next, and the others behind them.** -/
theorem append (h : c.Ahead (bs ++ cs)) : c.Ahead bs ∧ (c.skip bs.length).Ahead cs := by
  obtain ⟨-, hsize⟩ := h.length_le
  obtain ⟨l, hl⟩ := h.isPrefix
  rw [List.length_append] at hsize
  rw [List.append_assoc] at hl
  refine ⟨⟨h.inBuffer, cs ++ l, hl⟩, ?_, l, ?_⟩
  · change c.pos + bs.length ≤ c.buffer.size
    omega
  · rw [rest_skip, ← hl, List.drop_left]

end Ahead

end Cursor

namespace Decode

variable {α β : Type} {x : Decode α} {f : α → Decode β} {bs cs : Bytes} {a : α} {b : β} {n : Nat}

/-! ## How bytes are read -/

theorem ensure_eq (n : Nat) (c : Cursor) :
    ensure n c = if c.stop - c.pos < n then .error (.truncated c.pos n) c else .ok () c := by
  change (if c.stop - c.pos < n then throw (.truncated c.pos n) else pure () : Decode Unit) c = _
  split <;> rfl

/-- The next bytes are those of the window that the buffer holds, or one of the two ends too early. -/
theorem peek_eq (n : Nat) (c : Cursor) :
    peek n c = if c.stop - c.pos < n then .error (.truncated c.pos n) c
      else if c.buffer.size < c.pos + n then .error (.memory (.outOfBounds c.pos n c.buffer.size)) c
      else .ok (c.rest.take n) c := by
  unfold peek
  by_cases hstop : c.stop - c.pos < n
  · have hensure : ensure n c = .error (.truncated c.pos n) c := by rw [ensure_eq, if_pos hstop]
    rw [if_pos hstop, bind_of_error hensure]
  · have hensure : ensure n c = .ok () c := by rw [ensure_eq, if_neg hstop]
    rw [if_neg hstop, bind_of_ok hensure, get_bind_apply]
    by_cases hsize : c.buffer.size < c.pos + n
    · rw [if_pos hsize, SharedBuffer.read, if_neg (Nat.not_le.mpr hsize)]
      rfl
    · rw [if_neg hsize, Cursor.read_eq (Nat.le_of_not_lt hstop) (Nat.le_of_not_lt hsize)]
      rfl

/-! ## Readers in a row -/

/-- A reader takes bytes for a value wherever they come next. -/
def Reads (x : Decode α) (bs : Bytes) (a : α) : Prop :=
  ∀ c : Cursor, c.Ahead bs → x c = .ok a (c.skip bs.length)

namespace Reads

theorem pure (a : α) : Reads (pure a) [] a := fun _ _ => rfl

/-- **Readers in a row take bytes in a row.** -/
theorem bind (hx : Reads x bs a) (hf : Reads (f a) cs b) : Reads (x >>= f) (bs ++ cs) b := by
  intro c h
  obtain ⟨hbs, hcs⟩ := h.append
  change EStateM.bind x f c = _
  rw [EStateM.bind, hx c hbs]
  change f a (c.skip bs.length) = _
  rw [hf _ hcs, Cursor.skip_skip, List.length_append]

/-- What follows the last reader in a row takes nothing. -/
theorem last (hx : Reads x bs a) (hf : Reads (f a) [] b) : Reads (x >>= f) bs b := by
  have h := hx.bind hf
  rwa [List.append_nil] at h

theorem result {g : α → β} (hx : Reads x bs a) :
    Reads (x >>= fun a => Pure.pure (g a)) bs (g a) :=
  hx.last (Reads.pure (g a))

/-- The place of the cursor takes nothing. -/
theorem position {f : Nat → Decode β} (hf : ∀ p, Reads (f p) bs b) : Reads (position >>= f) bs b :=
  fun c h => hf c.pos c h

/-- A check that the bytes to be read pass. -/
theorem ensure {f : Unit → Decode β} (hf : Reads (f ()) bs b) (hn : n ≤ bs.length) :
    Reads (ensure n >>= f) bs b := by
  intro c h
  obtain ⟨hstop, -⟩ := h.length_le
  change EStateM.bind (Decode.ensure n) f c = _
  rw [EStateM.bind, ensure_eq, if_neg (by omega)]
  exact hf c h

/-- **A reader used so often takes the bytes of a list.** -/
theorem many {write : α → Bytes} {l : List α} (h : ∀ a ∈ l, Reads x (write a) a) (acc : List α) :
    Reads (many x l.length acc) (l.flatMap write) (acc.reverse ++ l) := by
  induction l generalizing acc with
  | nil =>
    rw [List.append_nil]
    exact Reads.pure acc.reverse
  | cons a l ih =>
    obtain ⟨ha, hl⟩ := List.forall_mem_cons.mp h
    have hrest := ih hl (a :: acc)
    rw [List.reverse_cons, List.append_assoc] at hrest
    exact ha.bind hrest

end Reads

/-! ## Operands -/

/-- Bytes that come next are seen. -/
theorem peek_of_ahead {c : Cursor} (h : c.Ahead bs) : peek bs.length c = .ok bs c := by
  obtain ⟨hstop, hsize⟩ := h.length_le
  rw [peek_eq, if_neg (by omega), if_neg (by omega), h.take_rest]

theorem reads_take (bs : Bytes) : Reads (take bs.length) bs bs := by
  intro c h
  change EStateM.bind (peek bs.length) _ c = _
  rw [EStateM.bind, peek_of_ahead h]
  rfl

theorem reads_byte (b : UInt8) : Reads byte [b] b := (reads_take [b]).bind (Reads.pure b)

theorem littleEndian_word (n : UInt32) : littleEndian (Wire.word n) = n.toNat := by
  have hn := n.toNat_lt
  have h8 : UInt32.toNat 8 % 32 = 8 := rfl
  have h16 : UInt32.toNat 16 % 32 = 16 := rfl
  have h24 : UInt32.toNat 24 % 32 = 24 := rfl
  simp only [Wire.word, littleEndian, UInt32.toNat_toUInt8, UInt32.toNat_shiftRight,
    Nat.shiftRight_eq_div_pow, h8, h16, h24]
  omega

theorem reads_word (n : UInt32) : Reads word (Wire.word n) n := by
  have hn : (littleEndian (Wire.word n)).toUInt32 = n := by
    rw [littleEndian_word]
    exact UInt32.ofNat_toNat
  have h : Reads word (Wire.word n) (littleEndian (Wire.word n)).toUInt32 :=
    (reads_take (Wire.word n)).result
  rwa [hn] at h

theorem reads_id (id : NodeId) : Reads Decode.id (Wire.word id.number) id :=
  (reads_word id.number).result

/-- A word holds a count. -/
theorem toNat_count {n : Nat} (hn : n < 4294967296) : (UInt32.ofNat n).toNat = n :=
  UInt32.toNat_ofNat_of_lt' hn

theorem fromUTF8?_bytes (s : String) :
    String.fromUTF8? s.toUTF8.data.toList.toByteArray = some s := by
  have hb : s.toUTF8.data.toList.toByteArray = s.toByteArray := by
    apply ByteArray.ext
    rw [List.data_toByteArray, Array.toArray_toList]
    rfl
  rw [hb, String.fromUTF8?, dif_pos s.isValidUTF8]
  rfl

theorem reads_text {s : String} (hs : FitsText s) : Reads text (Wire.text s) s := by
  have hlen : s.toUTF8.data.toList.length = (UInt32.ofNat s.utf8ByteSize).toNat := by
    rw [toNat_count hs]
    rfl
  refine (reads_word _).bind fun c h => ?_
  rw [← hlen]
  change EStateM.bind (peek _) _ c = _
  rw [EStateM.bind, peek_of_ahead h]
  simp only
  rw [fromUTF8?_bytes]
  rfl

theorem reads_flag (b : Bool) : Reads flag (Wire.flag b) b := by
  refine Reads.position fun offset => (reads_byte _).last ?_
  cases b with
  | false => exact Reads.pure false
  | true => exact Reads.pure true

theorem reads_optionalText {o : Option String} (ho : ∀ s ∈ o, FitsText s) :
    Reads optionalText (Wire.optionalText o) o := by
  cases o with
  | none => exact (reads_flag false).last (Reads.pure none)
  | some s => exact (reads_flag true).bind (reads_text (ho s rfl)).result

theorem reads_optionalFlag (o : Option Bool) : Reads optionalFlag (Wire.optionalFlag o) o := by
  refine Reads.position fun offset => ?_
  cases o with
  | none => exact (reads_byte 0).last (Reads.pure none)
  | some b =>
    cases b with
    | false => exact (reads_byte 1).last (Reads.pure (some false))
    | true => exact (reads_byte 2).last (Reads.pure (some true))

theorem length_word (n : UInt32) : (Wire.word n).length = 4 := rfl

theorem reads_ids {l : List NodeId} (hl : l.length < 4294967296) : Reads ids (Wire.ids l) l := by
  have hmany : Reads (many Decode.id l.length []) (l.flatMap fun id => Wire.word id.number) l :=
    Reads.many (fun id _ => reads_id id) []
  have hlen : l.length * 4 ≤ (l.flatMap fun id => Wire.word id.number).length := by
    rw [List.length_flatMap]
    simp [length_word]
  refine (reads_word _).bind ?_
  rw [toNat_count hl]
  exact hmany.ensure hlen

/-! ## Templates -/

theorem reads_templateAttribute {a : TemplateAttribute} (ha : a.Fits) :
    Reads templateAttribute (Wire.templateAttribute a) a := by
  obtain ⟨hname, hvalue, hns⟩ := ha
  rw [Wire.templateAttribute, List.append_assoc]
  exact (reads_text hname).bind ((reads_text hvalue).bind (reads_optionalText hns).result)

/-- **A node of a template is read as it was written.** -/
theorem reads_descriptor {d : Descriptor} (hd : d.Fits) : Reads descriptor (Wire.descriptor d) d := by
  refine Reads.position fun offset => ?_
  cases d with
  | element tag ns attributes childCount slot =>
    obtain ⟨htag, hns, hlen, hattributes⟩ := hd
    have hmany : Reads (many templateAttribute attributes.length [])
        (attributes.flatMap Wire.templateAttribute) attributes :=
      Reads.many (fun a ha => reads_templateAttribute (hattributes a ha)) []
    rw [Wire.descriptor]
    simp only [List.append_assoc]
    refine (reads_byte 0).bind ((reads_text htag).bind ((reads_optionalText hns).bind ?_))
    refine (reads_word _).bind ?_
    rw [toNat_count hlen]
    exact hmany.bind ((reads_word childCount).bind (reads_flag slot).result)
  | text t => exact (reads_byte 1).bind (reads_text hd).result
  | dynamicText => exact (reads_byte 2).last (Reads.pure _)
  | placeholder => exact (reads_byte 3).last (Reads.pure _)

theorem length_descriptor_pos (d : Descriptor) : 0 < (Wire.descriptor d).length := by
  cases d <;> exact Nat.succ_pos _

theorem reads_descriptors {l : List Descriptor} (hl : l.length < 4294967296) (h : ∀ d ∈ l, d.Fits) :
    Reads descriptors (Wire.count l.length ++ l.flatMap Wire.descriptor) l := by
  have hmany : Reads (many descriptor l.length []) (l.flatMap Wire.descriptor) l :=
    Reads.many (fun d hd => reads_descriptor (h d hd)) []
  have hlen : l.length ≤ (l.flatMap Wire.descriptor).length := by
    clear hmany hl h
    induction l with
    | nil => exact Nat.le_refl 0
    | cons d l ih =>
      have hd := length_descriptor_pos d
      rw [List.flatMap_cons, List.length_append, List.length_cons]
      omega
  refine (reads_word _).bind ?_
  rw [toNat_count hl]
  exact hmany.ensure hlen

end Decode

end DomHost
