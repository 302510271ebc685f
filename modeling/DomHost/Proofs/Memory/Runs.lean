import DomHost.Proofs.Along
import DomHost.Proofs.Memory

/-!
# The shared buffer over a run

A run grows a buffer, hands out ranges, writes to it and forgets what it has handed out. Whatever a run
does, ranges that are handed out without forgetting in between have no byte in common, and bytes that were
written are there until a call writes over them.

* `Span`: ranges of a buffer, and when they have no byte in common;
* `SharedBuffer.Operation`, `Use`, `Operation.run`: calls, with the ranges that they hand out and write over;
* `SharedBuffer.reserved`, `written`: these ranges over a run;
* **`SharedBuffer.Ready.serves`**: what one call does;
* `SharedBuffer.Holds`, `MemoryBridge.Shows`: bytes in a buffer, and what the views of a bridge read;
* **`SharedBuffer.reliable_after`**: what a buffer is good for after any run.
-/

namespace DomHost

/-- A range of a buffer. -/
structure Span where
  start : Nat
  length : Nat
deriving DecidableEq

namespace Span

/-- The end of a range, which is not in it. -/
def stop (s : Span) : Nat := s.start + s.length

instance : Membership Nat Span := ⟨fun s i => s.start ≤ i ∧ i < s.stop⟩

/-- Two ranges have no byte in common. -/
def Apart (s t : Span) : Prop := ∀ i ∈ s, i ∉ t

variable {s t : Span} {i : Nat}

theorem mem_iff : i ∈ s ↔ s.start ≤ i ∧ i < s.stop := Iff.rfl

theorem apart_of_stop_le (h : s.stop ≤ t.start) : s.Apart t := fun _ hs ht =>
  Nat.not_le.mpr (mem_iff.mp hs).2 (h.trans (mem_iff.mp ht).1)

end Span

namespace SharedBuffer

/-- A call on a buffer, with any arguments. -/
inductive Operation where
  | grow (delta : Nat)
  | allocate (len : Nat)
  | write (offset : Nat) (data : List UInt8)
  | writeBytes (data : List UInt8)
  | reset

/-- The ranges that a call hands out, and those that it writes over. -/
structure Use where
  reserved : List Span := []
  written : List Span := []

namespace Operation

/-- Carries out a call. -/
def run : Operation → BufferM Use
  | grow delta => do
    discard (SharedBuffer.grow delta)
    return {}
  | allocate len => do
    let offset ← SharedBuffer.allocate len
    return { reserved := [⟨offset, len⟩] }
  | write offset data => do
    SharedBuffer.write offset data
    return { written := [⟨offset, data.length⟩] }
  | writeBytes data => do
    let (offset, len) ← SharedBuffer.writeBytes data
    return { reserved := [⟨offset, len⟩], written := [⟨offset, len⟩] }
  | reset => do
    modify (·.reset)
    return {}

/-- The ranges that a call uses; none when it fails. -/
def use (b : SharedBuffer) (o : Operation) : Use :=
  match o.run b with
  | .ok u _ => u
  | .error _ _ => {}

end Operation

/-- The buffer after a call, whether it succeeded or failed. -/
def apply (b : SharedBuffer) (o : Operation) : SharedBuffer :=
  match o.run b with
  | .ok _ t => t
  | .error _ t => t

/-- The buffer after some calls. -/
def after (b : SharedBuffer) (os : List Operation) : SharedBuffer := os.foldl apply b

/-- The ranges that some calls hand out. -/
def reserved : SharedBuffer → List Operation → List Span := along apply fun b o => (o.use b).reserved

/-- The ranges that some calls write over. -/
def written : SharedBuffer → List Operation → List Span := along apply fun b o => (o.use b).written

variable {b t : SharedBuffer} {o : Operation} {os : List Operation} {u : Use} {i n offset : Nat}
  {data : List UInt8}

theorem written_cons : b.written (o :: os) = (o.use b).written ++ (b.apply o).written os := rfl

/-! ## One call -/

/-- What a call makes of a buffer, with the ranges that it uses. -/
structure Serves (b : SharedBuffer) (o : Operation) (u : Use) (t : SharedBuffer) : Prop where
  ready : t.Ready
  maxPages : t.maxPages = b.maxPages
  size : b.size ≤ t.size
  byteAt : ∀ i, (∀ s ∈ u.written, i ∉ s) → t.byteAt i = b.byteAt i
  /-- Without forgetting, ranges are handed out behind those before. -/
  nextFree : o ≠ .reset → b.nextFree ≤ t.nextFree
  reserved : ∀ s ∈ u.reserved, b.nextFree ≤ s.start ∧ s.stop ≤ t.nextFree
  pairwise : u.reserved.Pairwise Span.Apart

theorem Ready.unused (h : b.Ready) (o : Operation) : Serves b o {} b where
  ready := h
  maxPages := rfl
  size := le_rfl
  byteAt _ _ := rfl
  nextFree _ := le_rfl
  reserved := by simp
  pairwise := .nil

theorem Serves.overwrite (h : Serves b o u t) (hfits : offset + data.length ≤ t.size) :
    Serves b o { u with written := ⟨offset, data.length⟩ :: u.written } (t.overwrite offset data) where
  ready := h.ready.overwrite hfits
  maxPages := h.maxPages
  size := size_overwrite hfits ▸ h.size
  byteAt i hi := by
    obtain ⟨hout, hrest⟩ := List.forall_mem_cons.mp hi
    have hrange : ¬(offset ≤ i ∧ i < offset + data.length) := hout
    rw [byteAt_overwrite hfits, if_neg hrange, h.byteAt i hrest]
  nextFree := h.nextFree
  reserved := h.reserved
  pairwise := h.pairwise

theorem Ready.serves_enlarge (h : b.Ready) (hd : b.pages + n ≤ b.maxPages) : Serves b o {} (b.enlarge n) where
  ready := h.enlarge hd
  maxPages := by rw [SharedBuffer.enlarge, maxPages_withBytes]
  size := size_le_enlarge b n
  byteAt i _ := byteAt_enlarge b n i
  nextFree _ := by rw [SharedBuffer.enlarge, nextFree_withBytes]
  reserved := nofun
  pairwise := .nil

theorem Ready.serves_reserve (h : b.Ready) (hn : b.needed n ≤ b.maxPages) :
    Serves b o { reserved := [⟨b.nextOffset, n⟩] } (b.reserve n) where
  ready := h.reserve hn
  maxPages := maxPages_reserve n
  size := size_le_reserve b n
  byteAt i _ := byteAt_reserve b n i
  nextFree _ := by
    rw [nextFree_reserve]
    exact b.le_nextOffset.trans (Nat.le_add_right _ _)
  reserved s hs := by
    obtain rfl := List.mem_singleton.mp hs
    rw [nextFree_reserve]
    exact ⟨b.le_nextOffset, le_rfl⟩
  pairwise := List.pairwise_singleton _ _

/-- **A call serves its buffer; if it fails, the buffer is as it was.** -/
theorem Ready.serves (h : b.Ready) (o : Operation) :
    (∃ u t, o.run b = .ok u t ∧ Serves b o u t) ∨ ∃ e, o.run b = .error e b := by
  cases o with
  | grow delta =>
    have hgrow := grow_eq h delta
    unfold Operation.run
    split at hgrow
    · exact .inl ⟨_, _, bind_of_ok (discard_of_ok hgrow), h.serves_enlarge ‹_›⟩
    · exact .inr ⟨_, bind_of_error (discard_of_error hgrow) _⟩
  | allocate len =>
    have hallocate := allocate_eq h len
    unfold Operation.run
    split at hallocate
    · exact .inl ⟨_, _, bind_of_ok hallocate, h.serves_reserve ‹_›⟩
    · exact .inr ⟨_, bind_of_error hallocate _⟩
  | write offset data =>
    have hwrite := write_eq h offset data
    unfold Operation.run
    split at hwrite
    · exact .inl ⟨_, _, bind_of_ok hwrite, (h.unused _).overwrite ‹_›⟩
    · exact .inr ⟨_, bind_of_error hwrite _⟩
  | writeBytes data =>
    have hwrite := writeBytes_eq h data
    unfold Operation.run
    split at hwrite
    · exact .inl ⟨_, _, bind_of_ok hwrite, (h.serves_reserve ‹_›).overwrite (h.le_size_reserve _)⟩
    · exact .inr ⟨_, bind_of_error hwrite _⟩
  | reset =>
    have hserves : Serves b .reset {} b.reset :=
      { h.unused .reset with
        ready := h.reset
        nextFree := nofun
        reserved := nofun }
    exact .inl ⟨{}, b.reset, rfl, hserves⟩

theorem Ready.serves_apply (h : b.Ready) (o : Operation) : Serves b o (o.use b) (b.apply o) := by
  obtain ⟨u, t, hrun, hserves⟩ | ⟨e, hrun⟩ := h.serves o
  · simpa only [Operation.use, apply, hrun] using hserves
  · simpa only [Operation.use, apply, hrun] using h.unused o

/-! ## Runs -/

theorem Ready.after (h : b.Ready) (os : List Operation) : (b.after os).Ready := by
  induction os generalizing b with
  | nil => exact h
  | cons o os ih => exact ih (h.serves_apply o).ready

theorem Ready.maxPages_after (h : b.Ready) (os : List Operation) : (b.after os).maxPages = b.maxPages := by
  induction os generalizing b with
  | nil => rfl
  | cons o os ih => exact (ih (h.serves_apply o).ready).trans (h.serves_apply o).maxPages

theorem Ready.size_le_after (h : b.Ready) (os : List Operation) : b.size ≤ (b.after os).size := by
  induction os generalizing b with
  | nil => exact le_rfl
  | cons o os ih => exact (h.serves_apply o).size.trans (ih (h.serves_apply o).ready)

/-- **A byte stays until a call writes over it.** -/
theorem Ready.byteAt_after (h : b.Ready) (hi : ∀ s ∈ b.written os, i ∉ s) :
    (b.after os).byteAt i = b.byteAt i := by
  induction os generalizing b with
  | nil => rfl
  | cons o os ih =>
    rw [written_cons, List.forall_mem_append] at hi
    exact (ih (h.serves_apply o).ready hi.2).trans ((h.serves_apply o).byteAt i hi.1)

/-- Calls that do not forget hand out ranges behind those before. -/
theorem Ready.le_start (h : b.Ready) (hreset : .reset ∉ os) :
    ∀ s ∈ b.reserved os, b.nextFree ≤ s.start := by
  induction os generalizing b with
  | nil => exact fun s hs => nomatch hs
  | cons o os ih =>
    have hserves := h.serves_apply o
    obtain ⟨hfirst, hrest⟩ := not_or.mp (List.mem_cons.not.mp hreset)
    refine fun s hs => (List.mem_append.mp hs).elim (fun hs => (hserves.reserved s hs).1) fun hs => ?_
    exact (hserves.nextFree (Ne.symm hfirst)).trans (ih hserves.ready hrest s hs)

/-- **Ranges that are handed out without forgetting in between have no byte in common.** -/
theorem Ready.pairwise_reserved (h : b.Ready) (hreset : .reset ∉ os) :
    (b.reserved os).Pairwise Span.Apart := by
  induction os generalizing b with
  | nil => exact .nil
  | cons o os ih =>
    have hserves := h.serves_apply o
    have hrest := (not_or.mp (List.mem_cons.not.mp hreset)).2
    refine List.pairwise_append.mpr ⟨hserves.pairwise, ih hserves.ready hrest, fun s hs s' hs' => ?_⟩
    exact Span.apart_of_stop_le ((hserves.reserved s hs).2.trans (hserves.ready.le_start hrest s' hs'))

/-! ## Bytes that stay -/

/-- A buffer has some bytes at an offset. -/
structure Holds (b : SharedBuffer) (offset : Nat) (data : List UInt8) : Prop where
  fits : offset + data.length ≤ b.size
  byteAt : ∀ i < data.length, b.byteAt (offset + i) = data.getD i 0

theorem holds_overwrite (hfits : offset + data.length ≤ b.size) :
    (b.overwrite offset data).Holds offset data where
  fits := by rwa [size_overwrite hfits]
  byteAt i hi := by
    rw [byteAt_overwrite hfits, if_pos ⟨Nat.le_add_right _ _, Nat.add_lt_add_left hi _⟩,
      Nat.add_sub_cancel_left]

namespace Holds

variable (h : b.Holds offset data)
include h

theorem after (hb : b.Ready) (hout : ∀ s ∈ b.written os, Span.Apart ⟨offset, data.length⟩ s) :
    (b.after os).Holds offset data where
  fits := h.fits.trans (hb.size_le_after os)
  byteAt i hi := by
    have hin : offset + i ∈ Span.mk offset data.length :=
      Span.mem_iff.mpr ⟨Nat.le_add_right _ _, Nat.add_lt_add_left hi _⟩
    rw [hb.byteAt_after fun s hs => hout s hs _ hin, h.byteAt i hi]

/-- A part of some bytes. -/
theorem extract (hn : i + n ≤ data.length) : b.Holds (offset + i) ((data.drop i).take n) where
  fits := by
    have := h.fits
    simp only [List.length_take, List.length_drop]
    omega
  byteAt j hj := by
    simp only [List.length_take, List.length_drop] at hj
    rw [Nat.add_assoc, h.byteAt _ (by omega)]
    simp only [List.getD_eq_getElem?_getD, List.getElem?_take, List.getElem?_drop, if_pos (by omega : j < n)]

theorem read_eq (hn : i + n ≤ data.length) : b.read (offset + i) n = .ok ((data.drop i).take n) := by
  have hpart := h.extract hn
  have hlen : ((data.drop i).take n).length = n := by
    simp only [List.length_take, List.length_drop]
    omega
  have hread := read_eq_ok hpart.fits hpart.byteAt
  rwa [hlen] at hread

end Holds

end SharedBuffer

/-- Every view of a bridge reads some bytes at an offset, as bytes and as scalars, by offset and by index. -/
structure MemoryBridge.Shows (m : MemoryBridge) (offset : Nat) (data : List UInt8) : Prop where
  read : ∀ {i n}, i + n ≤ data.length →
    m.observe.buffer.read (offset + i) n = .ok ((data.drop i).take n)
  scalarAt : ∀ {ty : ScalarType} {i}, i + ty.width ≤ data.length →
    m.observe.buffer.scalarAt ty (offset + i) = .ok (ty.decode ((data.drop i).take ty.width))
  element? : ∀ {ty : ScalarType} {index i}, i + ty.width ≤ data.length → index * ty.width = offset + i →
    m.observe.buffer.element? ty index = some (ty.decode ((data.drop i).take ty.width))

namespace SharedBuffer

variable {b : SharedBuffer} {offset : Nat} {data : List UInt8}

/-- A buffer with some views of it. -/
def viewed (b : SharedBuffer) (views : Nat) : SharedBuffer := { b with views }

theorem buffer_observe (m : MemoryBridge) : m.observe.buffer = m.buffer := by
  unfold MemoryBridge.observe
  dsimp only
  split <;> rfl

theorem Holds.shows (h : b.Holds offset data) {m : MemoryBridge} {views : Nat}
    (hm : m.buffer = b.viewed views) : m.Shows offset data := by
  have hviewed : (b.viewed views).Holds offset data := ⟨h.fits, h.byteAt⟩
  have hscalar : ∀ {ty : ScalarType} {i}, i + ty.width ≤ data.length →
      (b.viewed views).scalarAt ty (offset + i) = .ok (ty.decode ((data.drop i).take ty.width)) := by
    intro ty i hi
    rw [scalarAt, hviewed.read_eq hi]
    rfl
  constructor <;> intros <;> rw [buffer_observe, hm]
  · exact hviewed.read_eq ‹_›
  · exact hscalar ‹_›
  · rename_i hindex
    rw [element?, hindex, hscalar ‹_›]
    rfl

/-- What a buffer with a limit is good for. -/
structure Reliable (limit : Nat) (b : SharedBuffer) : Prop where
  whole : pageSize ∣ b.size
  limited : b.size ≤ limit * pageSize
  /-- A range that is handed out is aligned and inside. -/
  allocate : ∀ {len offset t}, allocate len b = .ok offset t → 8 ∣ offset ∧ offset + len ≤ t.size
  /-- No range is handed out just when the buffer may not have the pages that the range needs. -/
  allocate_fails : ∀ {len}, (∃ e t, SharedBuffer.allocate len b = .error e t) ↔
    limit < pagesFor (roundUp b.nextFree 8 + len)
  /-- Ranges that are handed out without forgetting in between have no byte in common. -/
  reserved : ∀ {os}, .reset ∉ os → (b.reserved os).Pairwise Span.Apart
  /-- A call that fails changes nothing. -/
  failed : ∀ {o : Operation} {e t}, o.run b = .error e t → t = b
  /-- Growing keeps all bytes and adds zeros behind them. -/
  grow : ∀ {delta old t}, grow delta b = .ok old t →
    t.bytes = b.bytes ++ Array.replicate (delta * pageSize) 0
  grow_allocate : ∀ {len offset t}, SharedBuffer.allocate len b = .ok offset t →
    t.bytes = b.bytes ++ Array.replicate (t.size - b.size) 0
  /-- A call keeps the bytes that it does not write over, and what it adds is zero until written. -/
  kept : ∀ o, b.size ≤ (b.apply o).size ∧
    ∀ i, (∀ s ∈ (Operation.use b o).written, i ∉ s) → (b.apply o).byteAt i = b.byteAt i
  /-- Bytes that were put into a new range are what every view reads there, until a call writes over them. -/
  writeBytes : ∀ {data offset len t}, writeBytes data b = .ok (offset, len) t →
    len = data.length ∧ ∀ {os}, (∀ s ∈ t.written os, Span.Apart ⟨offset, len⟩ s) →
      ∀ {m : MemoryBridge} {views}, m.buffer = (t.after os).viewed views → m.Shows offset data

theorem Ready.reliable (h : b.Ready) : b.Reliable b.maxPages where
  whole := Dvd.intro_left b.pages h.whole.symm
  limited := h.whole.trans_le (Nat.mul_le_mul_right _ h.limited)
  allocate {len offset t} hrun := by
    rw [allocate_eq h] at hrun
    split at hrun
    · cases hrun
      exact ⟨b.dvd_nextOffset, h.le_size_reserve len⟩
    · cases hrun
  allocate_fails {len} := by
    change _ ↔ b.maxPages < b.needed len
    rw [allocate_eq h]
    split
    · exact ⟨fun ⟨e, t, hrun⟩ => (nomatch hrun), fun hlt => absurd ‹_› (Nat.not_le.mpr hlt)⟩
    · exact ⟨fun _ => Nat.not_le.mp ‹_›, fun _ => ⟨_, _, rfl⟩⟩
  reserved := h.pairwise_reserved
  failed {o e t} hrun := by
    obtain ⟨u, t', hok, -⟩ | ⟨e', herror⟩ := h.serves o
    · rw [hok] at hrun
      cases hrun
    · rw [herror] at hrun
      cases hrun
      rfl
  grow {delta old t} hrun := by
    rw [grow_eq h] at hrun
    split at hrun <;> cases hrun
    rw [SharedBuffer.enlarge, bytes_withBytes]
  grow_allocate {len offset t} hrun := by
    rw [allocate_eq h] at hrun
    split at hrun <;> cases hrun
    rw [SharedBuffer.reserve, bytes_endAt, size_endAt, size_enlarge, Nat.add_sub_cancel_left,
      SharedBuffer.enlarge, bytes_withBytes]
  kept o := ⟨(h.serves_apply o).size, (h.serves_apply o).byteAt⟩
  writeBytes {data offset len t} hrun := by
    rw [writeBytes_eq h] at hrun
    split at hrun <;> cases hrun
    have hfits := h.le_size_reserve data.length
    refine ⟨rfl, fun hout m views hm => Holds.shows ?_ hm⟩
    exact (holds_overwrite hfits).after ((h.reserve ‹_›).overwrite hfits) hout

/-- **A buffer is reliable after any run.** -/
theorem reliable_after (pages maxPages : Nat) (os : List Operation) :
    ((new pages maxPages).after os).Reliable (max maxPages pages) := by
  have h := ready_new pages maxPages
  have hlimit : ((new pages maxPages).after os).maxPages = max maxPages pages := h.maxPages_after os
  exact hlimit ▸ (h.after os).reliable

end SharedBuffer

end DomHost
