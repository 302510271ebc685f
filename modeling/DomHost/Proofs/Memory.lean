import DomHost.Memory.View
import DomHost.Proofs.Outcome
import Mathlib.Algebra.Order.Floor.Div

/-!
# What calls do to the shared buffer

A buffer without views has whole pages and not more of them than its limit, and no range it has handed out
ends behind them. Each call keeps this; a call that fails changes nothing. The buffer is best looked at byte by
byte: what lies behind its end counts as zero, so growing changes no byte.

* `SharedBuffer.Ready`: buffers without views;
* **`SharedBuffer.grow_eq`**, **`allocate_eq`**, `write_eq`, **`writeBytes_eq`**: the calls, with the conditions on
  which they fail;
* `SharedBuffer.byteAt_enlarge`, `byteAt_overwrite`: what they do to each byte;
* **`SharedBuffer.read_eq_ok`**: what a range reads as.
-/

namespace DomHost

/-- The pages that some bytes take. -/
def pagesFor (bytes : Nat) : Nat := bytes ⌈/⌉ pageSize

theorem pageSize_pos : 0 < pageSize := by decide

theorem pagesFor_eq (bytes : Nat) : (bytes + (pageSize - 1)) / pageSize = pagesFor bytes := by
  rw [pagesFor, Nat.ceilDiv_eq_add_pred_div, Nat.add_sub_assoc pageSize_pos]

theorem pagesFor_le_iff {bytes pages : Nat} : pagesFor bytes ≤ pages ↔ bytes ≤ pages * pageSize := by
  rw [pagesFor, ceilDiv_le_iff_le_mul pageSize_pos, Nat.mul_comm]

namespace SharedBuffer

/-- A buffer without views: it has whole pages and not more than its limit, and no range that was handed out
ends behind them. -/
structure Ready (b : SharedBuffer) : Prop where
  idle : b.views = 0
  whole : b.size = b.pages * pageSize
  limited : b.pages ≤ b.maxPages
  nextFree : b.nextFree ≤ b.size

/-- Where the next range begins. -/
def nextOffset (b : SharedBuffer) : Nat := roundUp b.nextFree 8

/-- The pages that a buffer has to have for a range. -/
def needed (b : SharedBuffer) (len : Nat) : Nat := pagesFor (b.nextOffset + len)

/-- A buffer with other bytes and another epoch. -/
def withBytes (b : SharedBuffer) (bytes : Array UInt8) (epoch : Nat) : SharedBuffer := { b with bytes, epoch }

/-- A buffer whose ranges handed out end at a place. -/
def endAt (b : SharedBuffer) (nextFree : Nat) : SharedBuffer := { b with nextFree }

/-- A buffer with pages of zeros behind its own. -/
def enlarge (b : SharedBuffer) (delta : Nat) : SharedBuffer :=
  b.withBytes (b.bytes ++ Array.replicate (delta * pageSize) 0) (if delta = 0 then b.epoch else b.epoch + 1)

/-- A buffer with bytes in the place of others. -/
def overwrite (b : SharedBuffer) (offset : Nat) (data : List UInt8) : SharedBuffer :=
  b.withBytes (b.bytes.extract 0 offset ++ data.toArray ++ b.bytes.extract (offset + data.length) b.size) b.epoch

/-- A buffer that has handed out the next range. -/
def reserve (b : SharedBuffer) (len : Nat) : SharedBuffer :=
  (b.enlarge (b.needed len - b.pages)).endAt (b.nextOffset + len)

/-- The byte at a place; behind the end it is zero. -/
def byteAt (b : SharedBuffer) (i : Nat) : UInt8 := b.bytes.getD i 0

variable {b t : SharedBuffer} {delta len offset epoch i : Nat} {bytes : Array UInt8} {data : List UInt8}

@[simp] theorem bytes_withBytes : (b.withBytes bytes epoch).bytes = bytes := rfl

@[simp] theorem nextFree_withBytes : (b.withBytes bytes epoch).nextFree = b.nextFree := rfl

@[simp] theorem maxPages_withBytes : (b.withBytes bytes epoch).maxPages = b.maxPages := rfl

@[simp] theorem size_withBytes : (b.withBytes bytes epoch).size = bytes.size := rfl

@[simp] theorem pages_withBytes : (b.withBytes bytes epoch).pages = bytes.size / pageSize := rfl

@[simp] theorem bytes_endAt (n : Nat) : (b.endAt n).bytes = b.bytes := rfl

@[simp] theorem nextFree_endAt (n : Nat) : (b.endAt n).nextFree = n := rfl

@[simp] theorem maxPages_endAt (n : Nat) : (b.endAt n).maxPages = b.maxPages := rfl

@[simp] theorem size_endAt (n : Nat) : (b.endAt n).size = b.size := rfl

theorem maxPages_reserve (len : Nat) : (b.reserve len).maxPages = b.maxPages := by
  rw [reserve, maxPages_endAt, enlarge, maxPages_withBytes]

theorem nextFree_reserve (len : Nat) : (b.reserve len).nextFree = b.nextOffset + len := by
  rw [reserve, nextFree_endAt]

theorem le_nextOffset (b : SharedBuffer) : b.nextFree ≤ b.nextOffset := by
  simp only [nextOffset, roundUp]
  omega

theorem dvd_nextOffset (b : SharedBuffer) : 8 ∣ b.nextOffset := Nat.dvd_mul_left 8 _

/-! ## Sizes -/

theorem size_enlarge (b : SharedBuffer) (delta : Nat) : (b.enlarge delta).size = b.size + delta * pageSize := by
  simp [enlarge, size]

theorem size_le_enlarge (b : SharedBuffer) (delta : Nat) : b.size ≤ (b.enlarge delta).size := by
  rw [size_enlarge]
  exact Nat.le_add_right _ _

theorem size_le_reserve (b : SharedBuffer) (len : Nat) : b.size ≤ (b.reserve len).size := by
  rw [reserve, size_endAt]
  exact size_le_enlarge b _

theorem size_overwrite (h : offset + data.length ≤ b.size) : (b.overwrite offset data).size = b.size := by
  simp only [size, overwrite, bytes_withBytes, Array.size_append, Array.size_extract, List.size_toArray] at h ⊢
  omega

theorem enlarge_zero (b : SharedBuffer) : b.enlarge 0 = b := by simp [enlarge, withBytes]

namespace Ready

variable (h : b.Ready)
include h

theorem withBytes (hwhole : bytes.size = bytes.size / pageSize * pageSize)
    (hlimited : bytes.size / pageSize ≤ b.maxPages) (hnext : b.nextFree ≤ bytes.size) :
    (b.withBytes bytes epoch).Ready where
  idle := h.idle
  whole := hwhole
  limited := hlimited
  nextFree := hnext

theorem pages_enlarge (delta : Nat) : (b.enlarge delta).pages = b.pages + delta := by
  rw [pages, size_enlarge, h.whole, ← Nat.add_mul, Nat.mul_div_cancel _ pageSize_pos]

theorem enlarge (hd : b.pages + delta ≤ b.maxPages) : (b.enlarge delta).Ready := by
  have hsize := size_enlarge b delta
  have hpages := h.pages_enlarge delta
  rw [SharedBuffer.enlarge, size_withBytes] at hsize
  rw [SharedBuffer.enlarge, pages_withBytes] at hpages
  refine h.withBytes ?_ (hpages ▸ hd) ?_
  · rw [hpages, hsize, h.whole, Nat.add_mul]
  · rw [hsize]
    exact Nat.le_trans h.nextFree (Nat.le_add_right _ _)

theorem endAt (hn : len ≤ b.size) : (b.endAt len).Ready where
  idle := h.idle
  whole := h.whole
  limited := h.limited
  nextFree := hn

theorem reset : b.reset.Ready := h.endAt (Nat.zero_le _)

/-- A range lies in a buffer of as many pages as it needs. -/
theorem le_size_reserve (len : Nat) : b.nextOffset + len ≤ (b.reserve len).size := by
  have hle : b.nextOffset + len ≤ b.needed len * pageSize := pagesFor_le_iff.mp (Nat.le_refl _)
  refine hle.trans ?_
  rw [SharedBuffer.reserve, size_endAt, size_enlarge, h.whole, ← Nat.add_mul]
  exact Nat.mul_le_mul_right _ (by omega)

theorem reserve (hn : b.needed len ≤ b.maxPages) : (b.reserve len).Ready := by
  have hd : b.pages + (b.needed len - b.pages) ≤ b.maxPages := by
    have := h.limited
    omega
  exact (h.enlarge hd).endAt (h.le_size_reserve len)

theorem overwrite (hfits : offset + data.length ≤ b.size) : (b.overwrite offset data).Ready := by
  have hsize := size_overwrite hfits
  rw [SharedBuffer.overwrite, size_withBytes] at hsize
  have hpages : b.size / pageSize = b.pages := rfl
  refine h.withBytes ?_ ?_ ?_
  · rw [hsize, hpages, h.whole]
  · rw [hsize, hpages]
    exact h.limited
  · rw [hsize]
    exact h.nextFree

end Ready

theorem ready_new (pages maxPages : Nat) : (new pages maxPages).Ready where
  idle := rfl
  whole := by simp [SharedBuffer.pages, size, new, Nat.mul_div_cancel _ pageSize_pos]
  limited := by simp [SharedBuffer.pages, size, new, Nat.mul_div_cancel _ pageSize_pos]
  nextFree := Nat.zero_le _

/-! ## Calls -/

theorem requireFree_eq (h : b.views = 0) : requireFree b = .ok () b := by
  unfold requireFree
  rw [get_bind_apply, h]
  rfl

/-- **A buffer grows by pages of zeros, unless it were above its limit.** -/
theorem grow_eq (h : b.Ready) (delta : Nat) :
    grow delta b =
      if b.pages + delta ≤ b.maxPages then .ok b.pages (b.enlarge delta)
      else .error (.limitExceeded (b.pages + delta) b.maxPages) b := by
  unfold grow
  rw [bind_of_ok (requireFree_eq h.idle), get_bind_apply]
  by_cases hlimit : b.maxPages < b.pages + delta
  · rw [if_neg (Nat.not_le.mpr hlimit)]
    simp only [if_pos hlimit]
    rfl
  · rw [if_pos (Nat.not_lt.mp hlimit)]
    simp only [if_neg hlimit]
    by_cases hzero : delta = 0
    · simp only [hzero, enlarge_zero]
      rfl
    · have hmore : (b.pages + delta) * pageSize - b.size = delta * pageSize := by
        rw [h.whole, Nat.add_mul, Nat.add_sub_cancel_left]
      simp only [if_neg hzero, hmore, enlarge]
      rfl

/-- **A range is handed out, unless the buffer were above its limit with it.** -/
theorem allocate_eq (h : b.Ready) (len : Nat) :
    allocate len b =
      if b.needed len ≤ b.maxPages then .ok b.nextOffset (b.reserve len)
      else .error (.limitExceeded (b.needed len) b.maxPages) b := by
  have hoffset : roundUp b.nextFree 8 = b.nextOffset := rfl
  have hneeded : (b.nextOffset + len + (pageSize - 1)) / pageSize = b.needed len := pagesFor_eq _
  have hfits : b.needed len ≤ b.pages ↔ b.nextOffset + len ≤ b.size := by
    rw [needed, pagesFor_le_iff, ← h.whole]
  have hgrow := grow_eq h (b.needed len - b.pages)
  unfold allocate
  rw [bind_of_ok (requireFree_eq h.idle), get_bind_apply]
  simp only [hoffset, hneeded]
  by_cases hsize : b.size < b.nextOffset + len
  · have hmore : b.pages < b.needed len := Nat.not_le.mp fun hle => Nat.not_le.mpr hsize (hfits.mp hle)
    rw [Nat.add_sub_cancel' hmore.le] at hgrow
    rw [if_pos hsize]
    by_cases hlimit : b.needed len ≤ b.maxPages
    · rw [if_pos hlimit] at hgrow ⊢
      rw [bind_of_ok (discard_of_ok hgrow)]
      rfl
    · rw [if_neg hlimit] at hgrow ⊢
      exact bind_of_error (discard_of_error hgrow) _
  · have hle := hfits.mpr (Nat.not_lt.mp hsize)
    rw [if_neg hsize, if_pos (hle.trans h.limited), reserve, Nat.sub_eq_zero_of_le hle, enlarge_zero]
    rfl

theorem write_eq (h : b.Ready) (offset : Nat) (data : List UInt8) :
    write offset data b =
      if offset + data.length ≤ b.size then .ok () (b.overwrite offset data)
      else .error (.outOfBounds offset data.length b.size) b := by
  unfold write
  rw [bind_of_ok (requireFree_eq h.idle), get_bind_apply]
  by_cases hsize : b.size < offset + data.length
  · rw [if_neg (Nat.not_le.mpr hsize)]
    simp only [if_pos hsize]
    rfl
  · rw [if_pos (Nat.not_lt.mp hsize)]
    simp only [if_neg hsize]
    rfl

/-- **Bytes are put into a new range on the same condition as it is handed out.** -/
theorem writeBytes_eq (h : b.Ready) (data : List UInt8) :
    writeBytes data b =
      if b.needed data.length ≤ b.maxPages then
        .ok (b.nextOffset, data.length) ((b.reserve data.length).overwrite b.nextOffset data)
      else .error (.limitExceeded (b.needed data.length) b.maxPages) b := by
  have hallocate := allocate_eq h data.length
  unfold writeBytes
  by_cases hlimit : b.needed data.length ≤ b.maxPages
  · have hwrite := write_eq (h.reserve hlimit) b.nextOffset data
    rw [if_pos (h.le_size_reserve _)] at hwrite
    rw [if_pos hlimit] at hallocate ⊢
    rw [bind_of_ok hallocate, bind_of_ok hwrite]
    rfl
  · rw [if_neg hlimit] at hallocate ⊢
    exact bind_of_error hallocate _

/-! ## Bytes -/

theorem byteAt_enlarge (b : SharedBuffer) (delta i : Nat) : (b.enlarge delta).byteAt i = b.byteAt i := by
  simp only [byteAt, enlarge, bytes_withBytes, Array.getD_eq_getD_getElem?, Array.getElem?_append,
    Array.getElem?_replicate]
  split
  · rfl
  · rename_i hi
    rw [Array.getElem?_eq_none (Nat.not_lt.mp hi)]
    split <;> rfl

theorem byteAt_reserve (b : SharedBuffer) (len i : Nat) : (b.reserve len).byteAt i = b.byteAt i := by
  rw [reserve, byteAt, bytes_endAt]
  exact byteAt_enlarge b _ i

theorem byteAt_overwrite (hfits : offset + data.length ≤ b.size) (i : Nat) :
    (b.overwrite offset data).byteAt i =
      if offset ≤ i ∧ i < offset + data.length then data.getD (i - offset) 0 else b.byteAt i := by
  have hsize : b.bytes.size = b.size := rfl
  have hfront : (b.bytes.extract 0 offset).size = offset := by
    rw [Array.size_extract]
    omega
  have hback : (b.bytes.extract 0 offset ++ data.toArray).size = offset + data.length := by
    rw [Array.size_append, hfront, List.size_toArray]
  simp only [byteAt, overwrite, bytes_withBytes, Array.getD_eq_getD_getElem?, List.getD_eq_getElem?_getD]
  by_cases hbefore : i < offset
  · rw [if_neg (by omega), Array.getElem?_append_left (by omega), Array.getElem?_append_left (by omega),
      Array.getElem?_extract, if_pos (by omega), Nat.zero_add]
  by_cases hin : i < offset + data.length
  · rw [if_pos ⟨Nat.not_lt.mp hbefore, hin⟩, Array.getElem?_append_left (by omega),
      Array.getElem?_append_right (by omega), hfront, List.getElem?_toArray]
  · rw [if_neg (by omega), Array.getElem?_append_right (by omega), hback, Array.getElem?_extract]
    split
    · rw [Nat.add_sub_cancel' (Nat.not_lt.mp hin)]
    · rw [Array.getElem?_eq_none (by omega)]

/-- **A range inside the buffer reads as the bytes in it.** -/
theorem read_eq_ok {bytes : List UInt8} (hlen : offset + bytes.length ≤ b.size)
    (hbytes : ∀ i < bytes.length, b.byteAt (offset + i) = bytes.getD i 0) :
    b.read offset bytes.length = .ok bytes := by
  have hsize : b.bytes.size = b.size := rfl
  rw [read, if_pos hlen]
  refine congrArg _ (List.ext_getElem (by simp; omega) fun i hi hi' => ?_)
  have hi₀ := hbytes i hi'
  rw [byteAt, Array.getD_eq_getD_getElem?, Array.getElem?_eq_getElem (by omega),
    List.getD_eq_getElem?_getD, List.getElem?_eq_getElem hi'] at hi₀
  simpa using hi₀

end SharedBuffer

end DomHost
