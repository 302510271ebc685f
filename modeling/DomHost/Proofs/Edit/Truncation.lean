import DomHost.Proofs.Edit.Items

/-!
# Windows that end in the middle

A window that holds only the first bytes of instructions is read as the instructions that it holds
whole. What is left of the next one is found to be truncated, never read as something else.

* `Cursor.OnBoundary`: the windows that end between two instructions;
* `Cursor.facing`: a cursor that has the whole instruction before it;
* `Cursor.next?_cut`: what is left of one instruction;
* **`Cursor.readAll_take`**: all items of a window that ends early.
-/

namespace DomHost.Cursor

open Instruction

variable {b : SharedBuffer} {c : Cursor} {bs : Bytes} {is : List Instruction} {i : Instruction}
  {pos rounds k : Nat}

/-! ## Where a window ends -/

/-- Do so many bytes hold the first instructions whole, and nothing behind them? -/
def OnBoundary (is : List Instruction) (k : Nat) : Prop :=
  ∃ done, done <+: is ∧ (encodeAll done).length = k

theorem onBoundary_zero (is : List Instruction) : OnBoundary is 0 := ⟨[], List.nil_prefix, rfl⟩

theorem onBoundary_cons_iff (hk : 0 < k) :
    OnBoundary (i :: is) k ↔ i.encode.length ≤ k ∧ OnBoundary is (k - i.encode.length) := by
  constructor
  · rintro ⟨done, hdone, rfl⟩
    cases done with
    | nil => exact absurd hk (Nat.lt_irrefl _)
    | cons j done =>
      obtain ⟨rfl, hrest⟩ := List.cons_prefix_cons.mp hdone
      have hcons : (encodeAll (j :: done)).length = j.encode.length + (encodeAll done).length :=
        List.length_append
      exact ⟨by omega, done, hrest, by omega⟩
  · rintro ⟨hle, done, hdone, hlen⟩
    refine ⟨i :: done, List.cons_prefix_cons.mpr ⟨rfl, hdone⟩, ?_⟩
    have hcons : (encodeAll (i :: done)).length = i.encode.length + (encodeAll done).length :=
      List.length_append
    omega

theorem lt_of_mem_itemsFrom {x : Except DecodeError Instruction} {q : Nat}
    (h : (x, q) ∈ itemsFrom pos is) : pos < q := by
  induction is generalizing pos with
  | nil => exact absurd h List.not_mem_nil
  | cons i is ih =>
    have hi := length_encode_pos i
    rcases List.mem_cons.mp h with heq | h
    · cases heq
      omega
    · have hlt := ih h
      omega

/-- The items that end in the first `k` bytes behind `pos`. -/
def itemsWithin (pos k : Nat) (is : List Instruction) : List (Except DecodeError Instruction × Nat) :=
  (itemsFrom pos is).filter fun item => item.2 ≤ pos + k

theorem itemsWithin_cons_of_le (h : i.encode.length ≤ k) :
    itemsWithin pos k (i :: is) = (.ok i, pos + i.encode.length) ::
      itemsWithin (pos + i.encode.length) (k - i.encode.length) is := by
  have hend : pos + i.encode.length + (k - i.encode.length) = pos + k := by omega
  have hin : pos + i.encode.length ≤ pos + k := by omega
  rw [itemsWithin, itemsFrom, List.filter_cons, if_pos (decide_eq_true hin), itemsWithin, hend]

theorem itemsWithin_cons_of_lt (h : k < i.encode.length) : itemsWithin pos k (i :: is) = [] := by
  refine List.filter_eq_nil_iff.mpr fun item hitem => ?_
  rw [decide_eq_true_iff]
  rcases List.mem_cons.mp hitem with rfl | hitem
  · simp only
    omega
  · have hlt := lt_of_mem_itemsFrom hitem
    omega

/-! ## What is read -/

/-- A cursor at the same place that has other bytes before it, and a window that ends behind them. -/
def facing (c : Cursor) (bs : Bytes) : Cursor where
  buffer := { c.buffer with bytes := (c.buffer.bytes.toList.take c.pos ++ bs).toArray }
  pos := c.pos
  stop := c.pos + bs.length
  failed := c.failed

theorem length_before (h : c.pos ≤ c.buffer.size) : (c.buffer.bytes.toList.take c.pos).length = c.pos := by
  rw [List.length_take, Array.length_toList]
  exact Nat.min_eq_left h

theorem rest_facing (h : c.pos ≤ c.buffer.size) (bs : Bytes) : (c.facing bs).rest = bs := by
  simp only [rest, facing, Nat.add_sub_cancel_left]
  rw [List.drop_left' (length_before h), List.take_length]

theorem size_facing (h : c.pos ≤ c.buffer.size) (bs : Bytes) :
    (c.facing bs).buffer.size = c.pos + bs.length := by
  rw [facing, SharedBuffer.size, List.size_toArray, List.length_append, length_before h]

theorem ahead_facing (h : c.pos ≤ c.buffer.size) (bs : Bytes) : (c.facing bs).Ahead bs where
  inBuffer := by
    rw [size_facing h]
    exact Nat.le_add_right _ _
  isPrefix := ⟨[], by rw [rest_facing h, List.append_nil]⟩

/-- A window that holds the first bytes only, and the cursor that has all of them before it. -/
theorem cut_facing (hahead : c.Ahead (bs.take k)) (hk : k ≤ bs.length) (hstop : c.stop = c.pos + k) :
    c.Cut (c.pos + k) (c.pos + bs.length) (c.facing bs) where
  pos := rfl
  failed := rfl
  stop := hstop
  stop' := rfl
  le := Nat.le_add_right _ _
  bytes := by
    intro j hle hlt
    have hlen : (bs.take k).length = k := by rw [List.length_take, Nat.min_eq_left hk]
    have htake := hahead.take_rest
    obtain ⟨n, rfl⟩ := Nat.exists_eq_add_of_le hle
    rw [hlen, rest, hstop, Nat.add_sub_cancel_left, List.take_take, Nat.min_self] at htake
    have hbyte := congrArg (fun l => l[n]?) htake
    rw [List.getElem?_take_of_lt (by omega), List.getElem?_take_of_lt (by omega), List.getElem?_drop,
      Array.getElem?_toList] at hbyte
    have hbefore := length_before hahead.inBuffer
    rw [hbyte, facing, List.getElem?_toArray, List.getElem?_append_right (by omega), hbefore,
      Nat.add_sub_cancel_left]
  room := by
    obtain ⟨-, hsize⟩ := hahead.length_le
    rw [List.length_take, Nat.min_eq_left hk] at hsize
    rw [size_facing hahead.inBuffer]
    exact .inl ⟨hsize, Nat.add_le_add_left hk _⟩

/-- **What is left of an instruction is found to be truncated**: were it read, the reader would have
gone as far as in the whole instruction, behind the end of the window. -/
theorem next?_cut (h : i.Fits) (hpos : 0 < k) (hk : k < i.encode.length) (hfailed : c.failed = false)
    (hstop : c.stop = c.pos + k) (hahead : c.Ahead (i.encode.take k)) :
    ∃ offset needed d, c.next? = some (.error (.truncated offset needed), d) := by
  have hcut := cut_facing hahead (Nat.le_of_lt hk) hstop
  rcases hcut.instruction (by omega) with hend | ⟨e, c', hc, _, offset, needed, rfl⟩
  · rw [Decode.reads_instruction h _ (ahead_facing hahead.inBuffer i.encode)] at hend
    cases hc : Decode.instruction c with
    | error e c' =>
      rw [hc] at hend
      cases hend
    | ok j c' =>
      rw [hc] at hend
      cases hend
      rename_i hcut'
      have hle := hcut'.le
      have heq : c'.pos = c.pos + i.encode.length := hcut'.pos
      omega
  · exact ⟨offset, needed, _, next?_eq_error_iff.mpr ⟨⟨hfailed, by omega⟩, c', hc, rfl⟩⟩

/-- **The first bytes of instructions are read as the instructions in them**, and as truncated if they
end inside an instruction. -/
theorem items_take (h : ∀ i ∈ is, i.Fits) (hk : k ≤ (encodeAll is).length) (hfailed : c.failed = false)
    (hstop : c.stop = c.pos + k) (hahead : c.Ahead ((encodeAll is).take k)) (hrounds : k ≤ rounds) :
    (OnBoundary is k → (c.items rounds).1 = itemsWithin c.pos k is) ∧
    (¬ OnBoundary is k → ∃ offset needed q,
      (c.items rounds).1 = itemsWithin c.pos k is ++ [(.error (.truncated offset needed), q)]) := by
  induction is generalizing c k rounds with
  | nil =>
    obtain rfl : k = 0 := Nat.le_zero.mp hk
    have hend : c.atEnd = true := decide_eq_true (Nat.le_of_eq hstop)
    rw [items_of_none (next?_eq_none_iff.mpr (.inr hend))]
    exact ⟨fun _ => rfl, fun hn => absurd (onBoundary_zero _) hn⟩
  | cons i is ih =>
    obtain ⟨hi, his⟩ := List.forall_mem_cons.mp h
    have hcons : encodeAll (i :: is) = i.encode ++ encodeAll is := List.flatMap_cons
    have hlen := length_encode_pos i
    rw [hcons, List.length_append] at hk
    rw [hcons] at hahead
    rcases Nat.eq_zero_or_pos k with rfl | hpos
    · -- the window ends before the instruction
      have hend : c.atEnd = true := decide_eq_true (Nat.le_of_eq hstop)
      rw [items_of_none (next?_eq_none_iff.mpr (.inr hend)), itemsWithin_cons_of_lt hlen]
      exact ⟨fun _ => rfl, fun hn => absurd (onBoundary_zero _) hn⟩
    obtain ⟨rounds, rfl⟩ := Nat.exists_eq_add_one_of_ne_zero (n := rounds) (by omega)
    rw [onBoundary_cons_iff hpos]
    rcases Nat.lt_or_ge k i.encode.length with hlt | hle
    · -- it ends in the instruction
      rw [List.take_append_of_le_length (Nat.le_of_lt hlt)] at hahead
      obtain ⟨offset, needed, d, hnext⟩ := next?_cut hi hpos hlt hfailed hstop hahead
      rw [items_of_some hnext, items_of_none (next?_of_error hnext), itemsWithin_cons_of_lt hlt]
      exact ⟨fun hb => absurd hlt (Nat.not_lt.mpr hb.1), fun _ => ⟨offset, needed, d.pos, rfl⟩⟩
    · -- it ends behind the instruction, and goes on with the others
      rw [List.take_append, List.take_of_length_le hle] at hahead
      obtain ⟨hfirst, hothers⟩ := hahead.append
      have hstop' : c.stop = c.pos + i.encode.length + (k - i.encode.length) := by omega
      have hk' : k - i.encode.length ≤ (encodeAll is).length := by omega
      have hrounds' : k - i.encode.length ≤ rounds := by omega
      obtain ⟨hdone, hcut⟩ := ih (c := c.skip i.encode.length) his hk' hfailed hstop' hothers hrounds'
      rw [items_of_some (next?_encode hi hfailed hfirst), itemsWithin_cons_of_le hle]
      refine ⟨fun hb => congrArg _ (hdone hb.2), fun hn => ?_⟩
      obtain ⟨offset, needed, q, hitems⟩ := hcut fun hb => hn ⟨hle, hb⟩
      exact ⟨offset, needed, q, congrArg _ hitems⟩

/-- **A window on the first bytes of instructions is read as the instructions that lie in it whole, then
as nothing if it ends between two of them, and as truncated otherwise.** Nothing more comes to one who
asks for more. -/
theorem readAll_take {offset : Nat} (hb : b.size ≤ maxOffset) (h : ∀ i ∈ is, i.Fits)
    (hk : k ≤ (encodeAll is).length) (hread : b.read offset k = .ok ((encodeAll is).take k)) :
    (OnBoundary is k → (new b offset k).readAll.1 =
      (itemsFrom offset is).filter fun item => item.2 ≤ offset + k) ∧
    (¬ OnBoundary is k → ∃ at' needed q, (new b offset k).readAll.1 =
      ((itemsFrom offset is).filter fun item => item.2 ≤ offset + k) ++
        [(.error (.truncated at' needed), q)]) ∧
    ∀ fuel, k < fuel → (new b offset k).items fuel = (new b offset k).readAll := by
  have hlen : ((encodeAll is).take k).length = k := by rw [List.length_take, Nat.min_eq_left hk]
  have hread' : b.read offset ((encodeAll is).take k).length = .ok ((encodeAll is).take k) := by
    rw [hlen]
    exact hread
  have hahead := ahead_new hb (Nat.le_of_eq hlen) hread'
  obtain ⟨-, hsize⟩ := hahead.length_le
  have hstop : (new b offset k).stop = offset + k := by
    rw [hlen] at hsize
    exact Nat.min_eq_left (Nat.le_trans hsize hb)
  have hfinal := (confined b offset k).final
  have hitems := items_take h hk rfl hstop hahead (Nat.le_refl k)
  rw [hfinal k (Nat.le_refl k)] at hitems
  exact ⟨hitems.1, hitems.2, fun rounds hrounds => hfinal rounds (Nat.le_of_lt hrounds)⟩

/-- A window that ends in the text of the second of two instructions. -/
theorem exists_readAll_take : ∃ (b : SharedBuffer) (i j : Instruction) (k : Nat),
    k < (encodeAll [i, j]).length ∧ i.encode.length < k ∧ b.read 2 k = .ok ((encodeAll [i, j]).take k) ∧
    ∃ at' needed q, (new b 2 k).readAll.1 =
      [(.ok i, 2 + i.encode.length), (.error (.truncated at' needed), q)] := by
  let i : Instruction := .createPlaceholder ⟨5⟩
  let j : Instruction := .createText ⟨6⟩ "two"
  let b : SharedBuffer := { bytes := (0 :: 1 :: encodeAll [i, j]).toArray, maxPages := 1 }
  have htext : FitsText "two" := by decide
  have h : ∀ i' ∈ [i, j], i'.Fits := by simp [i, j, Instruction.Fits, htext]
  have hread : b.read 2 15 = .ok ((encodeAll [i, j]).take 15) := by decide +kernel
  have hcut := (readAll_take (by decide +kernel) h (by decide +kernel) hread).2.1
  have hinside : ¬ OnBoundary [i, j] 15 := by
    rw [onBoundary_cons_iff (by decide), onBoundary_cons_iff (by decide +kernel)]
    rintro ⟨-, hle, -⟩
    exact absurd hle (by decide +kernel)
  exact ⟨b, i, j, 15, by decide +kernel, by decide +kernel, hread, hcut hinside⟩

end DomHost.Cursor
