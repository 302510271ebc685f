import DomHost.Proofs.Edit.Canonical
import DomHost.Proofs.Edit.Window

/-!
# The items of a window

However a window is filled, it is read as instructions that stand one after the other, each written in
its own bytes, and at most one fault behind them.

* `Cursor.spans`: the items of a reading with the offsets before and behind them;
* **`Cursor.readAll_canonical`**: what stands between the offsets of an instruction is its encoding;
* `Cursor.listing`, **`Cursor.Within.exists_listing`**: instructions, and at most one fault behind them;
* **`Cursor.Cut.items`**: windows with the same bytes are read alike;
* `Cursor.Confined`, **`Cursor.confined`**: a reading ends, stays in its window and depends on nothing
  else.
-/

namespace DomHost

open Instruction

/-- An instruction takes its opcode and a word at least. -/
theorem Instruction.five_le_length_encode (i : Instruction) : 5 ≤ i.encode.length := by
  cases i <;> simp only [encode, operands, List.length_cons, List.length_append, Decode.length_word] <;>
    omega

namespace Cursor

variable {b b' : SharedBuffer} {start stop pos offset len rounds : Nat} {c d : Cursor}
  {x : Except DecodeError Instruction} {i : Instruction} {e : DecodeError}

/-! ## One item -/

/-- **An instruction is read from its own bytes**, which the cursor leaves behind. -/
theorem ahead_of_next? (h : c.next? = some (.ok i, d)) :
    c.Ahead i.encode ∧ d = c.skip i.encode.length := by
  obtain ⟨_, rfl, hprefix, hd⟩ := Decode.takes_instruction c i d (next?_eq_ok_iff.mp h).2
  have hfive := i.five_le_length_encode
  have hlen := hprefix.length_le
  rw [length_rest] at hlen
  exact ⟨⟨by omega, hprefix⟩, hd⟩

/-- The next item, or the fault in its place, leaves the cursor in its window. -/
theorem Within.next? (h : c.Within b start stop) (hx : c.next? = some (x, d)) :
    d.Within b start stop := by
  have hend := h.instruction
  cases x with
  | ok i =>
    rw [(next?_eq_ok_iff.mp hx).2] at hend
    exact hend
  | error e =>
    obtain ⟨-, c', hc, rfl⟩ := next?_eq_error_iff.mp hx
    rw [hc] at hend
    exact ⟨hend.buffer_eq, hend.stop_eq, hend.start_le, hend.le_stop, hend.le_size⟩

/-! ## All items -/

/-- The items of a reading that starts at an offset, each with the offsets before and behind it. -/
def spans (pos : Nat) : List (Except DecodeError Instruction × Nat) →
    List (Except DecodeError Instruction × Nat × Nat)
  | [] => []
  | (x, q) :: rest => (x, pos, q) :: spans q rest

/-- **Every item of a reading is the next item of a cursor in the window.** -/
theorem exists_next?_of_mem_spans (h : c.Within b start stop) {p q : Nat}
    (hm : (x, p, q) ∈ spans c.pos (c.items rounds).1) :
    ∃ d d' : Cursor, d.Within b start stop ∧ d.pos = p ∧ d.next? = some (x, d') ∧ d'.pos = q := by
  induction rounds generalizing c with
  | zero => exact absurd hm List.not_mem_nil
  | succ rounds ih =>
    rcases hx : c.next? with _ | ⟨y, d⟩
    · rw [items_of_none hx] at hm
      exact absurd hm List.not_mem_nil
    · rw [items_of_some hx] at hm
      rcases List.mem_cons.mp hm with heq | hm
      · cases heq
        exact ⟨c, d, h, rfl, hx, rfl⟩
      · exact ih (h.next? hx) hm

/-- A window begins with a cursor in it, unless it is at its end from the start. -/
theorem atEnd_or_within (b : SharedBuffer) (offset len : Nat) :
    (new b offset len).atEnd = true ∨
      (new b offset len).Within b offset (min (offset + len) maxOffset) := by
  by_cases hle : offset ≤ min (offset + len) maxOffset
  · exact .inr ⟨rfl, rfl, Nat.le_refl _, hle, Nat.le_max_left _ _⟩
  · exact .inl (decide_eq_true (Nat.le_of_not_le hle))

theorem readAll_of_atEnd (h : c.atEnd = true) : c.readAll = ([], c) :=
  items_of_none (next?_eq_none_iff.mpr (.inr h)) _

/-- The buffer holds the encoding of an instruction between the offsets before and behind it. -/
theorem read_of_mem_spans {p q : Nat} (h : (.ok i, p, q) ∈ spans offset (new b offset len).readAll.1) :
    p < q ∧ b.read p (q - p) = .ok i.encode := by
  rcases atEnd_or_within b offset len with hend | hin
  · rw [readAll_of_atEnd hend] at h
    exact absurd h List.not_mem_nil
  · obtain ⟨d, d', hd, rfl, hx, rfl⟩ := exists_next?_of_mem_spans hin h
    obtain ⟨hahead, rfl⟩ := ahead_of_next? hx
    have hread := hahead.read
    have hfive := i.five_le_length_encode
    rw [hd.buffer_eq] at hread
    change d.pos < d.pos + i.encode.length ∧ b.read d.pos (d.pos + i.encode.length - d.pos) = _
    rw [Nat.add_sub_cancel_left]
    exact ⟨by omega, hread⟩

/-- An instruction is read where the buffer holds its encoding. -/
theorem mem_spans_of_read (h : i.Fits) (hread : b.read offset i.encode.length = .ok i.encode)
    (hlen : i.encode.length ≤ len) (hmax : offset + len ≤ maxOffset) :
    (.ok i, offset, offset + i.encode.length) ∈ spans offset (new b offset len).readAll.1 := by
  have hstop : i.encode.length ≤ (new b offset len).stop - (new b offset len).pos := by
    simp only [new]
    omega
  have hfive := i.five_le_length_encode
  obtain ⟨rounds, hrounds⟩ : ∃ rounds, (new b offset len).stop - (new b offset len).pos = rounds + 1 :=
    ⟨_, (Nat.sub_add_cancel (by omega)).symm⟩
  rw [readAll, hrounds, items_of_some (next?_encode h rfl (.of_read hstop hread))]
  exact List.mem_cons_self

/-- **Whatever a window holds, an instruction that is read from it encodes to the very bytes between the
offsets before and behind it.** So one instruction is read from one string of bytes only, and from that
one it is read. -/
theorem readAll_canonical (b : SharedBuffer) (offset len : Nat) :
    (∀ i p q, (.ok i, p, q) ∈ spans offset (new b offset len).readAll.1 →
      p < q ∧ b.read p (q - p) = .ok i.encode) ∧
    (∀ (b' : SharedBuffer) (offset' len' : Nat) (i : Instruction) (p q p' q' : Nat),
      (.ok i, p, q) ∈ spans offset (new b offset len).readAll.1 →
      (.ok i, p', q') ∈ spans offset' (new b' offset' len').readAll.1 →
      b.read p (q - p) = b'.read p' (q' - p')) ∧
    ∀ i : Instruction, i.Fits → b.read offset i.encode.length = .ok i.encode → i.encode.length ≤ len →
      offset + len ≤ maxOffset →
      (.ok i, offset, offset + i.encode.length) ∈ spans offset (new b offset len).readAll.1 := by
  refine ⟨fun i p q h => read_of_mem_spans h, fun b' offset' len' i p q p' q' h h' => ?_,
    fun i h hread hlen hmax => mem_spans_of_read h hread hlen hmax⟩
  rw [(read_of_mem_spans h).2, (read_of_mem_spans h').2]

/-- Two instructions behind two other bytes, and the bytes of the second. -/
theorem exists_readAll_canonical : ∃ (b : SharedBuffer) (i : Instruction) (p q : Nat),
    (.ok i, p, q) ∈ spans 2 (new b 2 20).readAll.1 ∧ p = 7 ∧ q = 17 ∧
      b.read p (q - p) = .ok i.encode := by
  let first : Instruction := .createPlaceholder ⟨5⟩
  let second : Instruction := .createText ⟨6⟩ "x"
  let b : SharedBuffer := { bytes := (0 :: 1 :: encodeAll [first, second]).toArray, maxPages := 1 }
  have hm : (.ok second, 7, 17) ∈ spans 2 (new b 2 20).readAll.1 := by decide +kernel
  exact ⟨b, second, 7, 17, hm, rfl, rfl, ((readAll_canonical b 2 20).1 second 7 17 hm).2⟩

/-! ## The end of a reading -/

/-- Instructions, and at most one fault behind them. -/
def listing (done : List (Instruction × Nat)) (fault : Option (DecodeError × Nat)) :
    List (Except DecodeError Instruction × Nat) :=
  done.map (fun e => (.ok e.1, e.2)) ++ fault.toList.map fun e => (.error e.1, e.2)

/-- A window that begins where a cursor stands. -/
theorem Within.restart (h : c.Within b start stop) : c.Within b c.pos stop :=
  ⟨h.buffer_eq, h.stop_eq, Nat.le_refl _, h.le_stop, Nat.le_max_left _ _⟩

/-- **A reading ends behind its last instruction or with a fault**, and has passed five bytes at least
for each instruction. -/
theorem Within.exists_listing (h : c.Within b start stop) (hrounds : c.stop - c.pos ≤ rounds) :
    ∃ done fault, (c.items rounds).1 = listing done fault ∧
      c.pos + 5 * done.length ≤ (c.items rounds).2.pos ∧ (c.items rounds).2.Within b start stop ∧
      (c.items rounds).2.next? = none ∧
      (fault = none → c.failed = false → (c.items rounds).2.atEnd = true) := by
  induction rounds generalizing c with
  | zero =>
    have hend : c.atEnd = true := decide_eq_true (by omega)
    exact ⟨[], none, rfl, Nat.le_refl _, h, next?_eq_none_iff.mpr (.inr hend), fun _ _ => hend⟩
  | succ rounds ih =>
    rcases hx : c.next? with _ | ⟨e | i, d⟩
    · rw [items_of_none hx]
      refine ⟨[], none, rfl, Nat.le_refl _, h, hx, fun _ hfailed => ?_⟩
      exact (next?_eq_none_iff.mp hx).resolve_left (Bool.not_eq_true _ ▸ hfailed)
    · have hnone := next?_of_error hx
      rw [items_of_some hx, items_of_none hnone]
      exact ⟨[], some (e, d.pos), rfl, (h.restart.next? hx).start_le, h.next? hx, hnone,
        fun hn => by cases hn⟩
    · obtain ⟨-, rfl⟩ := ahead_of_next? hx
      have hfive := i.five_le_length_encode
      have hle : c.stop - (c.pos + i.encode.length) ≤ rounds := by omega
      obtain ⟨done, fault, hlist, hpos, hin, hnone, hend⟩ := ih (h.next? hx) hle
      rw [items_of_some hx]
      refine ⟨(i, c.pos + i.encode.length) :: done, fault, ?_, ?_, hin, hnone, hend⟩
      · rw [hlist]
        rfl
      · have hskip : (c.skip i.encode.length).pos = c.pos + i.encode.length := rfl
        change c.pos + 5 * (done.length + 1) ≤ ((c.skip i.encode.length).items rounds).2.pos
        omega

theorem items_eq_items {rounds' : Nat} (h : c.stop - c.pos ≤ rounds) (h' : c.stop - c.pos ≤ rounds') :
    c.items rounds = c.items rounds' := by
  induction rounds generalizing c rounds' with
  | zero =>
    have hend : c.atEnd = true := decide_eq_true (by omega)
    rw [items_of_none (next?_eq_none_iff.mpr (.inr hend)), items_of_none (next?_eq_none_iff.mpr (.inr hend))]
  | succ rounds ih =>
    rcases hx : c.next? with _ | ⟨x, d⟩
    · rw [items_of_none hx, items_of_none hx]
    · obtain ⟨-, hlt⟩ := open_of_next? hx
      obtain ⟨rounds', rfl⟩ := Nat.exists_eq_add_one_of_ne_zero (n := rounds') (by omega)
      have hrest : d.items rounds = d.items rounds' := by
        cases x with
        | error e => rw [items_of_none (next?_of_error hx), items_of_none (next?_of_error hx)]
        | ok i =>
          obtain ⟨-, rfl⟩ := ahead_of_next? hx
          have hfive := i.five_le_length_encode
          have hle : c.stop - (c.pos + i.encode.length) ≤ rounds := by omega
          have hle' : c.stop - (c.pos + i.encode.length) ≤ rounds' := by omega
          exact ih hle hle'
      rw [items_of_some hx, items_of_some hx, hrest]

/-- Nothing comes behind the end of a reading, however long one asks for more. -/
theorem items_eq_readAll (h : c.stop - c.pos ≤ rounds) : c.items rounds = c.readAll :=
  items_eq_items h (Nat.le_refl _)

theorem exists_mem_spans {items : List (Except DecodeError Instruction × Nat)} {q : Nat}
    (h : (x, q) ∈ items) (pos : Nat) : ∃ p, (x, p, q) ∈ spans pos items := by
  induction items generalizing pos with
  | nil => exact absurd h List.not_mem_nil
  | cons item items ih =>
    rcases List.mem_cons.mp h with rfl | h
    · exact ⟨pos, List.mem_cons_self⟩
    · obtain ⟨p, hp⟩ := ih h item.2
      exact ⟨p, List.mem_cons_of_mem _ hp⟩

/-! ## What a reading depends on -/

/-- Do two buffers hold the same bytes in a window? -/
def AgreeOn (b b' : SharedBuffer) (offset len : Nat) : Prop :=
  ∀ i, offset ≤ i → i < offset + len → b.bytes[i]? = b'.bytes[i]?

/-- Two cursors in windows with the same bytes have the same next item, and stay together. -/
theorem Cut.next? (h : Cut stop stop c d) :
    (c.next? = none ∧ d.next? = none) ∨
      ∃ x c' d', c.next? = some (x, c') ∧ d.next? = some (x, d') ∧ Cut stop stop c' d' := by
  have hfailed := h.failed.symm
  have hstop := h.stop'.trans h.stop.symm
  have hpos := h.pos.symm
  by_cases hopen : c.failed = false ∧ c.pos < c.stop
  · right
    have hopen' : d.failed = false ∧ d.pos < d.stop := by rwa [hfailed, hstop, hpos]
    rcases h.instruction (Nat.le_refl _) with hend | ⟨_, _, _, hlt, _⟩
    · cases hc : Decode.instruction c with
      | ok i c' =>
        rw [hc] at hend
        obtain ⟨d', hd, h'⟩ := hend.of_ok
        exact ⟨.ok i, c', d', next?_eq_ok_iff.mpr ⟨hopen, hc⟩, next?_eq_ok_iff.mpr ⟨hopen', hd⟩, h'⟩
      | error e c' =>
        rw [hc] at hend
        obtain ⟨d', hd, h'⟩ := hend.of_error
        exact ⟨.error e, _, _, next?_eq_error_iff.mpr ⟨hopen, c', hc, rfl⟩,
          next?_eq_error_iff.mpr ⟨hopen', d', hd, rfl⟩, { h' with failed := rfl }⟩
    · exact absurd hlt (Nat.lt_irrefl _)
  · left
    rw [next?_eq_none_iff, next?_eq_none_iff, atEnd, atEnd, hfailed, hstop, hpos, and_self,
      decide_eq_true_iff]
    by_cases hf : c.failed = true
    · exact .inl hf
    · exact .inr (Nat.le_of_not_lt fun hlt => hopen ⟨Bool.eq_false_iff.mpr hf, hlt⟩)

/-- **Windows of two buffers with the same bytes are read alike.** -/
theorem Cut.items (h : Cut stop stop c d) (rounds : Nat) :
    (c.items rounds).1 = (d.items rounds).1 ∧ (c.items rounds).2.pos = (d.items rounds).2.pos := by
  induction rounds generalizing c d with
  | zero => exact ⟨rfl, h.pos⟩
  | succ rounds ih =>
    rcases h.next? with ⟨hc, hd⟩ | ⟨x, c', d', hc, hd, h'⟩
    · rw [items_of_none hc, items_of_none hd]
      exact ⟨rfl, h.pos⟩
    · obtain ⟨hitems, hpos⟩ := ih h'
      rw [items_of_some hc, items_of_some hd, h'.pos, hitems]
      exact ⟨rfl, hpos⟩

/-- **A window is read alike in two buffers that hold the same bytes there**, if both contain it or both are
equally long. -/
theorem readAll_eq_of_agreeOn (h : AgreeOn b b' offset len)
    (hroom : offset + len ≤ b.size ∧ offset + len ≤ b'.size ∨ b.size = b'.size) :
    (new b offset len).readAll.1 = (new b' offset len).readAll.1 ∧
      (new b offset len).readAll.2.pos = (new b' offset len).readAll.2.pos := by
  by_cases hle : offset ≤ min (offset + len) maxOffset
  · have hcut : Cut (min (offset + len) maxOffset) (min (offset + len) maxOffset) (new b offset len)
        (new b' offset len) :=
      { pos := rfl
        failed := rfl
        stop := rfl
        stop' := rfl
        le := hle
        bytes := fun i hi hlt => h i hi (Nat.lt_of_lt_of_le hlt (Nat.min_le_left _ _))
        room := by
          have hmin := Nat.min_le_left (offset + len) maxOffset
          exact hroom.imp (fun ⟨hb, hb'⟩ => ⟨Nat.le_trans hmin hb, Nat.le_trans hmin hb'⟩)
            fun hsize => ⟨rfl, hsize⟩ }
    exact hcut.items _
  · have hend : ∀ b, (new b offset len).atEnd = true := fun _ =>
      decide_eq_true (Nat.le_of_not_le hle)
    rw [readAll_of_atEnd (hend b), readAll_of_atEnd (hend b')]
    exact ⟨rfl, rfl⟩

/-- A buffer that holds the bytes of a window of another one contains the window, if that is not empty. -/
theorem AgreeOn.le_size (h : AgreeOn b b' offset len) (hb : offset + len ≤ b.size) (hlen : 0 < len) :
    offset + len ≤ b'.size := by
  have hlast := h (offset + len - 1) (by omega) (by omega)
  have hlt : offset + len - 1 < b.bytes.size := by
    change _ ≤ b.bytes.size at hb
    omega
  rw [Array.getElem?_eq_getElem hlt] at hlast
  have hlt' := (Array.getElem?_eq_some_iff.mp hlast.symm).1
  change _ ≤ b'.bytes.size
  omega

/-- What holds of the reading of a window, whatever it and the rest of the buffer are filled with. -/
structure Confined (b : SharedBuffer) (offset len : Nat) : Prop where
  /-- Instructions, as many as the window has room for at most, then a fault or the end. -/
  ends : ∃ done fault, (new b offset len).readAll.1 = listing done fault ∧ done.length ≤ len / 5 ∧
    (fault = none → (new b offset len).readAll.2.atEnd = true)
  /-- Then the reader has nothing more to give, also behind a fault in the middle of the window. -/
  stops : (new b offset len).readAll.2.next? = none
  /-- Nothing more comes to one who asks for more. -/
  final : ∀ rounds, len ≤ rounds → (new b offset len).items rounds = (new b offset len).readAll
  /-- Only bytes in the window and in the buffer are passed, also by a fault. -/
  inside : ∀ p ∈ (new b offset len).readAll.2.pos :: (new b offset len).readAll.1.map (·.2),
    offset ≤ p ∧ p ≤ offset + len ∧ p ≤ max offset b.size
  /-- Bytes outside the window are not looked at. -/
  blind : ∀ b', b'.size = b.size → AgreeOn b b' offset len →
    (new b' offset len).readAll.1 = (new b offset len).readAll.1 ∧
      (new b' offset len).readAll.2.pos = (new b offset len).readAll.2.pos
  /-- Nor does it matter how large a buffer is that contains the window. -/
  sizeless : ∀ b', offset + len ≤ b.size → AgreeOn b b' offset len →
    (new b' offset len).readAll.1 = (new b offset len).readAll.1 ∧
      (new b' offset len).readAll.2.pos = (new b offset len).readAll.2.pos

theorem rounds_new_le (b : SharedBuffer) (offset len : Nat) :
    (new b offset len).stop - (new b offset len).pos ≤ len := by
  simp only [new]
  omega

theorem exists_readAll_eq_listing (b : SharedBuffer) (offset len : Nat) :
    ∃ done fault, (new b offset len).readAll.1 = listing done fault ∧ done.length ≤ len / 5 ∧
      (fault = none → (new b offset len).readAll.2.atEnd = true) := by
  rcases atEnd_or_within b offset len with hend | hin
  · rw [readAll_of_atEnd hend]
    exact ⟨[], none, rfl, Nat.zero_le _, fun _ => hend⟩
  · obtain ⟨done, fault, hlist, hle, hlast, -, hend⟩ := hin.exists_listing (Nat.le_refl _)
    have hstop := hlast.le_stop
    have hpos : (new b offset len).pos = offset := rfl
    exact ⟨done, fault, hlist, by omega, fun hn => hend hn rfl⟩

/-- **A reading goes on until the reader has nothing more to give.** -/
theorem next?_readAll (b : SharedBuffer) (offset len : Nat) :
    (new b offset len).readAll.2.next? = none := by
  rcases atEnd_or_within b offset len with hend | hin
  · rw [readAll_of_atEnd hend]
    exact next?_eq_none_iff.mpr (.inr hend)
  · obtain ⟨_, _, _, _, _, hnone, _⟩ := hin.exists_listing (Nat.le_refl _)
    exact hnone

/-- **No byte is passed that is not in the window and in the buffer.** -/
theorem readAll_inside (b : SharedBuffer) (offset len : Nat) :
    ∀ p ∈ (new b offset len).readAll.2.pos :: (new b offset len).readAll.1.map (·.2),
      offset ≤ p ∧ p ≤ offset + len ∧ p ≤ max offset b.size := by
  intro p hp
  rcases atEnd_or_within b offset len with hend | hin
  · rw [readAll_of_atEnd hend] at hp
    obtain rfl := List.mem_singleton.mp hp
    exact ⟨Nat.le_refl _, Nat.le_add_right _ _, Nat.le_max_left _ _⟩
  · obtain ⟨d, hd, rfl⟩ : ∃ d : Cursor, d.Within b offset (min (offset + len) maxOffset) ∧ d.pos = p := by
      rcases List.mem_cons.mp hp with rfl | hp
      · obtain ⟨_, _, _, _, hlast, _⟩ := hin.exists_listing (Nat.le_refl _)
        exact ⟨_, hlast, rfl⟩
      · obtain ⟨⟨x, q⟩, hx, rfl⟩ := List.mem_map.mp hp
        obtain ⟨_, hspan⟩ := exists_mem_spans hx offset
        obtain ⟨d, d', hd, _, hnext, hq⟩ := exists_next?_of_mem_spans hin hspan
        exact ⟨d', hd.next? hnext, hq⟩
    exact ⟨hd.start_le, Nat.le_trans hd.le_stop (Nat.min_le_left _ _), hd.le_size⟩

/-- A buffer that contains a window may be exchanged for any other that holds its bytes. -/
theorem readAll_eq_of_le_size (hb : offset + len ≤ b.size) (h : AgreeOn b b' offset len) :
    (new b' offset len).readAll.1 = (new b offset len).readAll.1 ∧
      (new b' offset len).readAll.2.pos = (new b offset len).readAll.2.pos := by
  rcases Nat.eq_zero_or_pos len with rfl | hlen
  · have hend : ∀ b, (new b offset 0).atEnd = true := fun _ => decide_eq_true (Nat.min_le_left _ _)
    rw [readAll_of_atEnd (hend b), readAll_of_atEnd (hend b')]
    exact ⟨rfl, rfl⟩
  · obtain ⟨hitems, hpos⟩ := readAll_eq_of_agreeOn h (.inl ⟨hb, h.le_size hb hlen⟩)
    exact ⟨hitems.symm, hpos.symm⟩

/-- **Any bytes in any window are read to an end, inside the window and from nothing else.** -/
theorem confined (b : SharedBuffer) (offset len : Nat) : Confined b offset len where
  ends := exists_readAll_eq_listing b offset len
  stops := next?_readAll b offset len
  final := fun _ hrounds => items_eq_readAll (Nat.le_trans (rounds_new_le b offset len) hrounds)
  inside := readAll_inside b offset len
  blind := fun b' hsize h => by
    obtain ⟨hitems, hpos⟩ := readAll_eq_of_agreeOn h (.inr hsize.symm)
    exact ⟨hitems.symm, hpos.symm⟩
  sizeless := fun b' hb h => readAll_eq_of_le_size hb h

end Cursor

end DomHost
