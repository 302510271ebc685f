import DomHost.Proofs.Edit.RoundTrip

/-!
# What is read is what would be written

A reader takes nothing but the bytes that stand for the value it gets: flags, codes, lengths and texts
have one way each to be written.

* `Decode.Takes`: what the bytes of a reader that succeeds have to do with its value;
* `Decode.Takes.bind`, `Decode.Takes.many`: readers in a row;
* `Decode.takes_word`, `Decode.takes_text`, `Decode.takes_flag`: operands;
* **`Decode.takes_instruction`**: an instruction is read from its own bytes.
-/

namespace DomHost

namespace Decode

variable {α β : Type} {x : Decode α} {f : α → Decode β} {Q : β → Bytes → Prop} {n : Nat}

/-- Whenever a reader gets a value, it has taken bytes off what was left of the window that satisfy a
relation with it. -/
def Takes (x : Decode α) (Q : α → Bytes → Prop) : Prop :=
  ∀ c a c', x c = .ok a c' → ∃ bs, Q a bs ∧ bs <+: c.rest ∧ c' = c.skip bs.length

namespace Takes

theorem pure {a : β} (h : Q a []) : Takes (pure a) Q := by
  intro c b c' hx
  obtain ⟨rfl, rfl⟩ : a = b ∧ c = c' := by
    change EStateM.Result.ok a c = .ok b c' at hx
    cases hx
    exact ⟨rfl, rfl⟩
  exact ⟨[], h, List.nil_prefix, rfl⟩

theorem throw (e : DecodeError) : Takes (MonadExcept.throw e : Decode β) Q :=
  fun _ _ _ hx => by cases hx

/-- **Readers in a row**: what is left to show of the second knows the bytes of the first. -/
theorem bind {W : α → Bytes → Prop} (hx : Takes x W)
    (hf : ∀ a bs, W a bs → Takes (f a) fun b cs => Q b (bs ++ cs)) : Takes (x >>= f) Q := by
  intro c b c₂ h
  change EStateM.bind x f c = .ok b c₂ at h
  unfold EStateM.bind at h
  cases hc : x c with
  | error e c₁ =>
    rw [hc] at h
    cases h
  | ok a c₁ =>
    rw [hc] at h
    obtain ⟨bs, hw, ⟨l, hl⟩, rfl⟩ := hx c a c₁ hc
    obtain ⟨cs, hq, hcs, rfl⟩ := hf a bs hw _ b c₂ h
    refine ⟨bs ++ cs, hq, ?_, ?_⟩
    · rw [Cursor.rest_skip, ← hl, List.drop_left] at hcs
      rw [← hl]
      exact (List.prefix_append_right_inj bs).mpr hcs
    · rw [Cursor.skip_skip, List.length_append]

/-- A reader whose bytes its value tells, and what follows it. -/
theorem andThen {write : α → Bytes} (hx : Takes x fun a bs => bs = write a)
    (hf : ∀ a, Takes (f a) fun b cs => Q b (write a ++ cs)) : Takes (x >>= f) Q :=
  hx.bind fun a _ hbs => hbs ▸ hf a

/-- The last reader in a row. -/
theorem result {write : α → Bytes} {g : α → β} (hx : Takes x fun a bs => bs = write a)
    (hg : ∀ a, Q (g a) (write a)) : Takes (x >>= fun a => Pure.pure (g a)) Q :=
  hx.andThen fun a => pure (by rw [List.append_nil]; exact hg a)

/-- The place of the cursor takes nothing. -/
theorem position {g : Nat → Decode β} (hg : ∀ p, Takes (g p) Q) : Takes (position >>= g) Q :=
  fun c b c' h => hg c.pos c b c' h

/-- A check takes nothing. -/
theorem ensure {g : Unit → Decode β} (hg : Takes (g ()) Q) : Takes (ensure n >>= g) Q := by
  intro c b c' h
  change EStateM.bind (Decode.ensure n) g c = _ at h
  rw [EStateM.bind, ensure_eq] at h
  by_cases hn : c.stop - c.pos < n
  · rw [if_pos hn] at h
    cases h
  · rw [if_neg hn] at h
    exact hg c b c' h

/-- Bytes that are seen are taken by what passes them. -/
theorem peek {g : Bytes → Decode β}
    (hg : ∀ bytes c b c', bytes.length = n → g bytes c = .ok b c' → Q b bytes ∧ c' = c.skip n) :
    Takes (peek n >>= g) Q := by
  intro c b c' h
  change EStateM.bind (Decode.peek n) g c = _ at h
  rw [EStateM.bind, peek_eq] at h
  by_cases hstop : c.stop - c.pos < n
  · rw [if_pos hstop] at h
    cases h
  · by_cases hsize : c.buffer.size < c.pos + n
    · rw [if_neg hstop, if_pos hsize] at h
      cases h
    · rw [if_neg hstop, if_neg hsize] at h
      have hlen : (c.rest.take n).length = n := by
        rw [List.length_take, Cursor.length_rest]
        omega
      obtain ⟨hq, rfl⟩ := hg _ c b c' hlen h
      exact ⟨c.rest.take n, hq, List.take_prefix n c.rest, by rw [hlen]⟩

/-- **A reader used so often takes the bytes of a list of that length.** -/
theorem many {write : α → Bytes} (hx : Takes x fun a bs => bs = write a) (n : Nat) (acc : List α) :
    Takes (many x n acc) fun l bs =>
      ∃ l', l = acc.reverse ++ l' ∧ l'.length = n ∧ bs = l'.flatMap write := by
  induction n generalizing acc with
  | zero => exact pure ⟨[], (List.append_nil _).symm, rfl, rfl⟩
  | succ n ih =>
    refine hx.andThen fun a => ?_
    intro c l c' h
    obtain ⟨bs, ⟨l', rfl, hlen, rfl⟩, hrest⟩ := ih (a :: acc) c l c' h
    refine ⟨_, ⟨a :: l', ?_, ?_, rfl⟩, hrest⟩
    · rw [List.reverse_cons, List.append_assoc, List.singleton_append]
    · rw [List.length_cons, hlen]

end Takes

/-! ## Operands -/

theorem takes_take (n : Nat) : Takes (take n) fun bs cs => cs = bs ∧ bs.length = n := by
  refine .peek fun bytes c bs c' hlen h => ?_
  cases h
  exact ⟨⟨rfl, hlen⟩, rfl⟩

theorem takes_byte : Takes byte fun b bs => bs = [b] := by
  refine (takes_take 1).bind fun bs cs h => ?_
  obtain ⟨rfl, hlen⟩ := h
  obtain ⟨b, rfl⟩ := List.length_eq_one_iff.mp hlen
  exact .pure rfl

/-- Four bytes are written again as they were read. -/
theorem word_littleEndian (b₀ b₁ b₂ b₃ : UInt8) :
    Wire.word (littleEndian [b₀, b₁, b₂, b₃]).toUInt32 = [b₀, b₁, b₂, b₃] := by
  have h₀ := b₀.toNat_lt
  have h₁ := b₁.toNat_lt
  have h₂ := b₂.toNat_lt
  have h₃ := b₃.toNat_lt
  have hn : (littleEndian [b₀, b₁, b₂, b₃]).toUInt32.toNat =
      b₀.toNat + 256 * (b₁.toNat + 256 * (b₂.toNat + 256 * b₃.toNat)) :=
    UInt32.toNat_ofNat_of_lt' (by simp only [littleEndian, UInt32.size]; omega)
  have h8 : UInt32.toNat 8 % 32 = 8 := rfl
  have h16 : UInt32.toNat 16 % 32 = 16 := rfl
  have h24 : UInt32.toNat 24 % 32 = 24 := rfl
  simp only [Wire.word, List.cons.injEq, and_true, ← UInt8.toNat_inj, UInt32.toNat_toUInt8,
    UInt32.toNat_shiftRight, Nat.shiftRight_eq_div_pow, h8, h16, h24, hn]
  omega

theorem takes_word : Takes word fun n bs => bs = Wire.word n := by
  refine (takes_take 4).bind fun bs cs h => ?_
  obtain ⟨rfl, hlen⟩ := h
  obtain ⟨b₀, b₁, b₂, b₃, rfl⟩ : ∃ b₀ b₁ b₂ b₃, cs = [b₀, b₁, b₂, b₃] := by
    match cs, hlen with
    | [b₀, b₁, b₂, b₃], _ => exact ⟨b₀, b₁, b₂, b₃, rfl⟩
  exact .pure (word_littleEndian b₀ b₁ b₂ b₃).symm

theorem takes_id : Takes Decode.id fun id bs => bs = Wire.word id.number :=
  takes_word.result fun _ => rfl

theorem bytes_of_fromUTF8? {bs : Bytes} {s : String}
    (h : String.fromUTF8? bs.toByteArray = some s) : s.toUTF8.data.toList = bs := by
  rw [String.fromUTF8?] at h
  split at h
  · obtain rfl := Option.some.inj h
    change bs.toByteArray.data.toList = bs
    rw [List.data_toByteArray]
  · cases h

theorem takes_text : Takes text fun s bs => bs = Wire.text s := by
  refine takes_word.andThen fun len => .peek fun bytes c s c' hlen h => ?_
  cases hs : String.fromUTF8? bytes.toByteArray with
  | none =>
    rw [hs] at h
    cases h
  | some s' =>
    rw [hs] at h
    cases h
    have hbytes := bytes_of_fromUTF8? hs
    have hsize : s.utf8ByteSize = len.toNat := by
      rw [← hlen, ← hbytes]
      rfl
    refine ⟨?_, rfl⟩
    rw [Wire.text, Wire.count, hsize, UInt32.ofNat_toNat, hbytes]

theorem takes_flag : Takes flag fun b bs => bs = Wire.flag b := by
  refine .position fun offset => takes_byte.andThen fun b => ?_
  split
  · exact .pure rfl
  · exact .pure rfl
  · exact .throw _

theorem takes_optionalText : Takes optionalText fun o bs => bs = Wire.optionalText o := by
  refine takes_flag.andThen fun b => ?_
  cases b with
  | false => exact .pure rfl
  | true => exact takes_text.result fun s => rfl

theorem takes_optionalFlag : Takes optionalFlag fun o bs => bs = Wire.optionalFlag o := by
  refine .position fun offset => takes_byte.andThen fun b => ?_
  split
  · exact .pure rfl
  · exact .pure rfl
  · exact .pure rfl
  · exact .throw _

/-- A count, and a list of as many operands. -/
theorem takes_list {write : α → Bytes} (hx : Takes x fun a bs => bs = write a) (n : UInt32) :
    Takes (many x n.toNat []) fun l bs =>
      Wire.word n ++ bs = Wire.count l.length ++ l.flatMap write := by
  intro c l c' h
  obtain ⟨bs, ⟨l', rfl, hlen, rfl⟩, hrest⟩ := Takes.many hx n.toNat [] c l c' h
  refine ⟨_, ?_, hrest⟩
  change Wire.word n ++ _ = _
  rw [Wire.count, hlen, UInt32.ofNat_toNat]

theorem takes_ids : Takes ids fun l bs => bs = Wire.ids l :=
  takes_word.andThen fun n => .ensure (takes_list takes_id n)

/-! ## Templates -/

theorem takes_templateAttribute :
    Takes templateAttribute fun a bs => bs = Wire.templateAttribute a := by
  refine takes_text.andThen fun name => takes_text.andThen fun value => ?_
  refine takes_optionalText.result fun ns => ?_
  rw [Wire.templateAttribute, List.append_assoc]

/-- **A node of a template is read from its own bytes.** -/
theorem takes_descriptor : Takes descriptor fun d bs => bs = Wire.descriptor d := by
  refine .position fun offset => takes_byte.andThen fun kind => ?_
  split
  · refine takes_text.andThen fun tag => takes_optionalText.andThen fun ns => ?_
    refine takes_word.andThen fun n => ?_
    refine (takes_list takes_templateAttribute n).bind fun attributes bs h => ?_
    refine takes_word.andThen fun childCount => takes_flag.result fun slot => ?_
    rw [← List.append_assoc (Wire.word n), h]
    simp only [Wire.descriptor, List.append_assoc, List.singleton_append]
  · exact takes_text.result fun t => rfl
  · exact .pure rfl
  · exact .pure rfl
  · exact .throw _

theorem takes_descriptors : Takes descriptors fun l bs =>
    bs = Wire.count l.length ++ l.flatMap Wire.descriptor :=
  takes_word.andThen fun n => .ensure (takes_list takes_descriptor n)

/-! ## Instructions -/

theorem propertyCode_of_propertyOfCode? {code : UInt8} {p : Property}
    (h : propertyOfCode? code = some p) : Wire.propertyCode p = code := by
  unfold propertyOfCode? at h
  split at h
  · cases h; rfl
  · cases h; rfl
  · cases h; rfl
  · cases h; rfl
  · cases h; rfl
  · cases h

theorem takes_property : Takes property fun p bs => bs = [Wire.propertyCode p] := by
  refine .position fun offset => takes_byte.andThen fun code => ?_
  split
  · rename_i p hp
    exact .pure (by rw [propertyCode_of_propertyOfCode? hp]; rfl)
  · exact .throw _

variable {R : Instruction → Bytes → Prop}

theorem takes_onNodes {make : NodeId → List NodeId → Instruction}
    (h : ∀ id l, R (make id l) (Wire.word id.number ++ Wire.ids l)) : Takes (onNodes make) R :=
  takes_id.andThen fun id => takes_ids.result fun l => h id l

theorem takes_listener {make : NodeId → String → CallbackId → Bool → Instruction}
    (h : ∀ id name callback capture, R (make id name callback capture)
      (Wire.word id.number ++ (Wire.text name ++ (Wire.word callback.number ++ Wire.flag capture)))) :
    Takes (listener make) R := by
  refine takes_id.andThen fun id => takes_text.andThen fun name => ?_
  exact takes_word.andThen fun callback => takes_flag.result fun capture => h id name ⟨callback⟩ capture

/-- **An instruction is read from its own bytes.** -/
theorem takes_instruction : Takes instruction fun i bs => bs = i.encode := by
  refine .position fun offset => takes_byte.andThen fun opcode => ?_
  -- the cases stand in the order of the codes
  split
  · refine takes_id.andThen fun id => takes_text.andThen fun tag => ?_
    refine takes_optionalText.result fun ns => ?_
    rw [Instruction.encode, Instruction.operands, List.append_assoc]
    rfl
  · exact takes_id.andThen fun id => takes_text.result fun t => rfl
  · exact takes_id.result fun id => rfl
  · refine takes_word.andThen fun template => takes_id.andThen fun id => takes_ids.result fun slots => ?_
    rw [Instruction.encode, Instruction.operands, List.append_assoc]
    rfl
  · exact takes_word.andThen fun template => takes_descriptors.result fun nodes => rfl
  · exact takes_id.andThen fun id => takes_text.result fun domId => rfl
  · refine takes_id.andThen fun id => takes_text.andThen fun name => takes_text.andThen fun value => ?_
    refine takes_optionalText.result fun ns => ?_
    rw [Instruction.encode, Instruction.operands, List.append_assoc, List.append_assoc]
    rfl
  · refine takes_id.andThen fun id => takes_text.andThen fun name => ?_
    refine takes_optionalText.result fun ns => ?_
    rw [Instruction.encode, Instruction.operands, List.append_assoc]
    rfl
  · refine takes_id.andThen fun id => takes_text.andThen fun name => ?_
    refine takes_optionalFlag.result fun force => ?_
    rw [Instruction.encode, Instruction.operands, List.append_assoc]
    rfl
  · refine takes_id.andThen fun id => takes_text.andThen fun name => takes_text.result fun value => ?_
    rw [Instruction.encode, Instruction.operands, List.append_assoc]
    rfl
  · refine takes_id.andThen fun id => takes_property.andThen fun p => takes_text.result fun value => ?_
    rw [Instruction.encode, Instruction.operands, List.append_assoc]
    rfl
  · exact takes_onNodes fun id l => rfl
  · exact takes_onNodes fun id l => rfl
  · exact takes_onNodes fun id l => rfl
  · exact takes_id.result fun id => rfl
  · exact takes_onNodes fun id l => rfl
  · exact takes_id.result fun id => rfl
  · refine takes_listener fun id name callback capture => ?_
    rw [Instruction.encode, Instruction.operands, List.append_assoc, List.append_assoc]
    rfl
  · refine takes_listener fun id name callback capture => ?_
    rw [Instruction.encode, Instruction.operands, List.append_assoc, List.append_assoc]
    rfl
  · exact .throw _

end Decode

end DomHost
