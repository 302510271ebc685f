import DomHost.Proofs.Edit.Reads
import DomHost.Proofs.Follows

/-!
# Readers and their windows

All that a reader sees of a cursor it sees by checking for bytes, by looking at the next ones and by asking
where it is; and it moves over bytes that it has looked at. So two runs of a reader go together if these do.

* `Decode.Glance`, `Decode.Tracked`: a relation of cursors that the elementary steps keep;
* **`Decode.Tracked.instruction`**: then every operand reader keeps it, and reading an instruction does;
* `Cursor.Within`, **`Cursor.Within.instruction`**: a cursor stays in its window and in its buffer;
* `Cursor.Cut`, **`Cursor.Cut.instruction`**: two buffers with the same bytes in a window are read alike, and a
  window that ends early is read as the whole one or found to be truncated.
-/

namespace DomHost

namespace Decode

variable {α β : Type} {R : Cursor → Cursor → Prop} {P : DecodeError → Prop} {n : Nat} {c d : Cursor}

/-- How two cursors see the next bytes: they see the same and may pass them, or there is the same fault, or the
first has a fault that is excused. -/
inductive Glance (R : Cursor → Cursor → Prop) (P : DecodeError → Prop) (n : Nat) (c d : Cursor) : Prop
  | seen (bytes : Bytes) (hc : peek n c = .ok bytes c) (hd : peek n d = .ok bytes d)
      (hskip : R (c.skip n) (d.skip n))
  | fault (e : DecodeError) (hc : peek n c = .error e c) (hd : peek n d = .error e d)
  | excused (e : DecodeError) (hc : peek n c = .error e c) (he : P e)

/-- A relation of cursors that the elementary steps of a reader keep, faults apart that are excused. -/
structure Tracked (R : Cursor → Cursor → Prop) (P : DecodeError → Prop) : Prop where
  pos : ∀ c d, R c d → c.pos = d.pos
  ensure : ∀ n, Follows R P (ensure n)
  peek : ∀ n c d, R c d → Glance R P n c d

namespace Tracked

/-! ## Operands -/

theorem position (h : Tracked R P) {f : Nat → Decode β} (hf : ∀ p, Follows R P (f p)) :
    Follows R P (position >>= f) := by
  intro c d hcd
  change Alike R (f c.pos c) (f d.pos d) ∨ ∃ e s', f c.pos c = _ ∧ P e
  rw [← h.pos c d hcd]
  exact hf c.pos c d hcd

/-- What is done with bytes that both cursors see. -/
theorem look (h : Tracked R P) {g : Bytes → Decode β}
    (hg : ∀ bytes c d, R c d → R (c.skip n) (d.skip n) → Alike R (g bytes c) (g bytes d)) :
    Follows R P (Decode.peek n >>= g) := by
  intro c d hcd
  cases h.peek n c d hcd with
  | seen bytes hc hd hskip =>
    rw [bind_of_ok hc, bind_of_ok hd]
    exact .inl (hg bytes c d hcd hskip)
  | fault e hc hd =>
    rw [bind_of_error hc, bind_of_error hd]
    exact .inl (.error e hcd)
  | excused e hc he => exact .inr ⟨e, c, bind_of_error hc g, he⟩

theorem take (h : Tracked R P) (n : Nat) : Follows R P (take n) :=
  h.look fun bytes _ _ _ hskip => .ok bytes hskip

theorem byte (h : Tracked R P) : Follows R P byte := by
  refine (h.take 1).bind fun bytes => ?_
  split
  · exact .pure _
  · exact .pure _

theorem word (h : Tracked R P) : Follows R P word := (h.take 4).bind fun _ => .pure _

theorem id (h : Tracked R P) : Follows R P Decode.id := h.word.bind fun _ => .pure _

theorem text (h : Tracked R P) : Follows R P text := by
  refine h.word.bind fun len => h.look fun bytes c d hcd hskip => ?_
  cases hs : String.fromUTF8? bytes.toByteArray with
  | some s => exact .ok s hskip
  | none =>
    have hpos : DecodeError.invalidUtf8 c.pos = .invalidUtf8 d.pos := by rw [h.pos c d hcd]
    change Alike R (.error (DecodeError.invalidUtf8 c.pos) c) (.error (DecodeError.invalidUtf8 d.pos) d)
    rw [hpos]
    exact .error _ hcd

theorem flag (h : Tracked R P) : Follows R P flag := by
  refine h.position fun offset => h.byte.bind fun b => ?_
  split
  · exact .pure _
  · exact .pure _
  · exact .throw _

theorem optionalText (h : Tracked R P) : Follows R P optionalText :=
  h.flag.bind fun _ => .ite (h.text.bind fun _ => .pure _) (.pure _)

theorem optionalFlag (h : Tracked R P) : Follows R P optionalFlag := by
  refine h.position fun offset => h.byte.bind fun b => ?_
  split
  · exact .pure _
  · exact .pure _
  · exact .pure _
  · exact .throw _

theorem many {x : Decode α} (hx : Follows R P x) (n : Nat) (acc : List α) :
    Follows R P (many x n acc) := by
  induction n generalizing acc with
  | zero => exact .pure _
  | succ n ih => exact hx.bind fun a => ih (a :: acc)

theorem ids (h : Tracked R P) : Follows R P ids :=
  h.word.bind fun n => (h.ensure _).bind fun _ => many h.id n.toNat []

/-! ## Templates -/

theorem templateAttribute (h : Tracked R P) : Follows R P templateAttribute :=
  h.text.bind fun _ => h.text.bind fun _ => h.optionalText.bind fun _ => .pure _

theorem descriptor (h : Tracked R P) : Follows R P descriptor := by
  refine h.position fun offset => h.byte.bind fun kind => ?_
  split
  · refine h.text.bind fun tag => h.optionalText.bind fun ns => h.word.bind fun n => ?_
    refine (many h.templateAttribute n.toNat []).bind fun attributes => h.word.bind fun childCount => ?_
    exact h.flag.bind fun slot => .pure _
  · exact h.text.bind fun _ => .pure _
  · exact .pure _
  · exact .pure _
  · exact .throw _

theorem descriptors (h : Tracked R P) : Follows R P descriptors :=
  h.word.bind fun n => (h.ensure _).bind fun _ => many h.descriptor n.toNat []

/-! ## Instructions -/

theorem property (h : Tracked R P) : Follows R P property := by
  refine h.position fun offset => h.byte.bind fun code => ?_
  split
  · exact .pure _
  · exact .throw _

theorem onNodes (h : Tracked R P) (make : NodeId → List NodeId → Instruction) :
    Follows R P (onNodes make) :=
  h.id.bind fun _ => h.ids.bind fun _ => .pure _

theorem listener (h : Tracked R P) (make : NodeId → String → CallbackId → Bool → Instruction) :
    Follows R P (listener make) :=
  h.id.bind fun _ => h.text.bind fun _ => h.word.bind fun _ => h.flag.bind fun _ => .pure _

/-- **What the elementary steps keep, reading an instruction keeps.** -/
theorem instruction (h : Tracked R P) : Follows R P instruction := by
  refine h.position fun offset => h.byte.bind fun opcode => ?_
  -- the cases stand in the order of the codes
  split
  · exact h.id.bind fun _ => h.text.bind fun _ => h.optionalText.bind fun _ => .pure _
  · exact h.id.bind fun _ => h.text.bind fun _ => .pure _
  · exact h.id.bind fun _ => .pure _
  · exact h.word.bind fun _ => h.id.bind fun _ => h.ids.bind fun _ => .pure _
  · exact h.word.bind fun _ => h.descriptors.bind fun _ => .pure _
  · exact h.id.bind fun _ => h.text.bind fun _ => .pure _
  · exact h.id.bind fun _ => h.text.bind fun _ => h.text.bind fun _ => h.optionalText.bind fun _ => .pure _
  · exact h.id.bind fun _ => h.text.bind fun _ => h.optionalText.bind fun _ => .pure _
  · exact h.id.bind fun _ => h.text.bind fun _ => h.optionalFlag.bind fun _ => .pure _
  · exact h.id.bind fun _ => h.text.bind fun _ => h.text.bind fun _ => .pure _
  · exact h.id.bind fun _ => h.property.bind fun _ => h.text.bind fun _ => .pure _
  · exact h.onNodes _
  · exact h.onNodes _
  · exact h.onNodes _
  · exact h.id.bind fun _ => .pure _
  · exact h.onNodes _
  · exact h.id.bind fun _ => .pure _
  · exact h.listener _
  · exact h.listener _
  · exact .throw _

end Tracked

end Decode

namespace Cursor

open Decode

variable {b : SharedBuffer} {start stop m n k : Nat} {c d : Cursor}

/-! ## Inside the window -/

/-- A cursor in a window of a buffer: it has passed no byte that is not in both. -/
structure Within (b : SharedBuffer) (start stop : Nat) (c : Cursor) : Prop where
  buffer_eq : c.buffer = b
  stop_eq : c.stop = stop
  start_le : start ≤ c.pos
  le_stop : c.pos ≤ stop
  le_size : c.pos ≤ max start b.size

namespace Within

/-- Bytes that the window and the buffer hold may be passed. -/
theorem skip (h : c.Within b start stop) (hstop : k ≤ c.stop - c.pos) (hsize : c.pos + k ≤ c.buffer.size) :
    (c.skip k).Within b start stop := by
  obtain ⟨rfl, rfl, hstart, hle, -⟩ := h
  refine ⟨rfl, rfl, ?_, ?_, ?_⟩
  · change start ≤ c.pos + k
    omega
  · change c.pos + k ≤ c.stop
    omega
  · change c.pos + k ≤ max start c.buffer.size
    omega

/-- **The elementary steps stay in the window**: the check of the window and the buffer's own come before a
byte is passed. -/
theorem tracked (b : SharedBuffer) (start stop : Nat) :
    Tracked (fun c d => d = c ∧ c.Within b start stop) fun _ => False where
  pos := fun _ _ ⟨he, _⟩ => he ▸ rfl
  ensure := by
    rintro k c _ ⟨rfl, h⟩
    left
    rw [ensure_eq]
    split
    · exact .error _ ⟨rfl, h⟩
    · exact .ok _ ⟨rfl, h⟩
  peek := by
    rintro k _ c ⟨rfl, h⟩
    have hpeek := peek_eq k c
    split at hpeek
    · exact .fault _ hpeek hpeek
    · split at hpeek
      · exact .fault _ hpeek hpeek
      · exact .seen _ hpeek hpeek ⟨rfl, h.skip (by omega) (by omega)⟩

/-- **Reading an instruction, or failing to, stays in the window.** -/
theorem instruction (h : c.Within b start stop) :
    match Decode.instruction c with
    | .ok _ c' => c'.Within b start stop
    | .error _ c' => c'.Within b start stop := by
  have hend := (tracked b start stop).instruction.alike (s := c) (t := c) ⟨rfl, h⟩
  cases hc : Decode.instruction c with
  | ok i c' =>
    rw [hc] at hend
    obtain ⟨_, _, _, h'⟩ := hend.of_ok
    exact h'
  | error e c' =>
    rw [hc] at hend
    obtain ⟨_, _, _, h'⟩ := hend.of_error
    exact h'

end Within

/-! ## Windows with the same bytes -/

/-- Two cursors at one place, of which the first has a window up to `m` and the second one up to `n`. Their
buffers hold the same bytes up to `m`: all of them, or as many if the windows are the same. -/
structure Cut (m n : Nat) (c d : Cursor) : Prop where
  pos : c.pos = d.pos
  failed : c.failed = d.failed
  stop : c.stop = m
  stop' : d.stop = n
  le : c.pos ≤ m
  bytes : ∀ i, c.pos ≤ i → i < m → c.buffer.bytes[i]? = d.buffer.bytes[i]?
  room : m ≤ c.buffer.size ∧ m ≤ d.buffer.size ∨ m = n ∧ c.buffer.size = d.buffer.size

/-- Is a fault excused when a window may end early? -/
def CutFault (m n : Nat) (e : DecodeError) : Prop := m < n ∧ ∃ offset needed, e = .truncated offset needed

namespace Cut

theorem skip (h : c.Cut m n d) (hk : k ≤ m - c.pos) : (c.skip k).Cut m n (d.skip k) where
  pos := congrArg (· + k) h.pos
  failed := h.failed
  stop := h.stop
  stop' := h.stop'
  le := by
    have hle := h.le
    change c.pos + k ≤ m
    omega
  bytes := fun i hi => h.bytes i (Nat.le_trans (Nat.le_add_right _ _) hi)
  room := h.room

/-- The two cursors have the same bytes before them, up to the end of the shorter window. -/
theorem take_rest (h : c.Cut m n d) (hmn : m ≤ n) (hk : k ≤ m - c.pos) :
    c.rest.take k = d.rest.take k := by
  have hc : k ≤ c.stop - c.pos := by rw [h.stop]; exact hk
  have hd : k ≤ d.stop - d.pos := by rw [h.stop', ← h.pos]; omega
  rw [rest, rest, List.take_take, List.take_take, Nat.min_eq_left hc, Nat.min_eq_left hd, ← h.pos]
  refine List.ext_getElem? fun i => ?_
  by_cases hi : i < k
  · rw [List.getElem?_take_of_lt hi, List.getElem?_take_of_lt hi, List.getElem?_drop, List.getElem?_drop,
      Array.getElem?_toList, Array.getElem?_toList]
    exact h.bytes (c.pos + i) (Nat.le_add_right _ _) (by omega)
  · rw [List.getElem?_take_eq_none (Nat.le_of_not_lt hi), List.getElem?_take_eq_none (Nat.le_of_not_lt hi)]

/-- The elementary steps keep two cursors together, unless the shorter window has ended. -/
theorem tracked (hmn : m ≤ n) : Tracked (Cut m n) (CutFault m n) where
  pos := fun _ _ h => h.pos
  ensure := by
    intro k c d h
    have hm := h.stop
    have hn := h.stop'
    have hpos := h.pos
    rw [ensure_eq, ensure_eq]
    by_cases hk : c.stop - c.pos < k
    · rw [if_pos hk]
      rcases Nat.lt_or_eq_of_le hmn with hlt | heq
      · exact .inr ⟨_, _, rfl, hlt, _, _, rfl⟩
      · rw [if_pos (by omega), hpos]
        exact .inl (.error _ h)
    · rw [if_neg hk, if_neg (by omega)]
      exact .inl (.ok _ h)
  peek := by
    intro k c d h
    have hm := h.stop
    have hn := h.stop'
    have hpos := h.pos
    have hle := h.le
    have hc := peek_eq k c
    have hd := peek_eq k d
    by_cases hk : c.stop - c.pos < k
    · rw [if_pos hk] at hc
      rcases Nat.lt_or_eq_of_le hmn with hlt | heq
      · exact .excused _ hc ⟨hlt, _, _, rfl⟩
      · rw [if_pos (by omega), ← hpos] at hd
        exact .fault _ hc hd
    · rw [if_neg hk] at hc
      rw [if_neg (by omega)] at hd
      by_cases hsize : c.buffer.size < c.pos + k
      · -- the window is longer than the buffer, so that the two windows and buffers are equally long
        have hsizes : c.buffer.size = d.buffer.size := by
          rcases h.room with ⟨hroom, -⟩ | ⟨-, hsizes⟩
          · omega
          · exact hsizes
        rw [if_pos hsize] at hc
        rw [if_pos (by omega), ← hpos, ← hsizes] at hd
        exact .fault _ hc hd
      · have hd' : ¬ d.buffer.size < d.pos + k := by
          rcases h.room with ⟨-, hroom⟩ | ⟨-, hsizes⟩
          · omega
          · omega
        rw [if_neg hsize, h.take_rest hmn (by omega)] at hc
        rw [if_neg hd'] at hd
        exact .seen _ hc hd (h.skip (by omega))

/-- **A window that ends early is read as the whole one, or found to be truncated.** -/
theorem instruction (hmn : m ≤ n) (h : c.Cut m n d) :
    Alike (Cut m n) (Decode.instruction c) (Decode.instruction d) ∨
      ∃ e c', Decode.instruction c = .error e c' ∧ CutFault m n e :=
  (tracked hmn).instruction c d h

end Cut

end Cursor

end DomHost
