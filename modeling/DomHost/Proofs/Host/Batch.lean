import DomHost.Host.Run
import DomHost.Proofs.Edit.Items
import DomHost.Proofs.Scene.Released

/-!
# Passes over streams

A host reads instructions one by one and carries out each before it reads the next. It could as well
read the whole window first. And it makes no difference where a stream is divided into passes, as long
as they follow each other until one fails.

* `Cursor.decoded`, `Scene.carryOut`: reading a window first, and carrying it out then;
* **`Scene.run_eq_carryOut`**: that is the same as doing both in turn;
* `Host.pass`, **`Host.pass_append`**: the instructions of two passes in one;
* **`Host.applyEdits_batch`**: streams in the shared buffer.
-/

namespace DomHost

variable {κ : Type}

/-! ## Reading first -/

namespace Cursor

open Instruction

/-- The instructions among the items of a reading, and the fault behind them. -/
def collect : List (Except DecodeError Instruction × Nat) → List Instruction × Option DecodeError
  | [] => ([], none)
  | (.error e, _) :: _ => ([], some e)
  | (.ok i, _) :: rest => (i :: (collect rest).1, (collect rest).2)

/-- The instructions in the whole window, and the fault that ends it, if there is one. -/
def decoded (c : Cursor) : List Instruction × Option DecodeError := collect c.readAll.1

theorem collect_itemsFrom (pos : Nat) (is : List Instruction) :
    collect (itemsFrom pos is) = (is, none) := by
  induction is generalizing pos with
  | nil => rfl
  | cons i is ih => rw [itemsFrom, collect, ih]

theorem decoded_of_read {b : SharedBuffer} {offset : Nat} {is : List Instruction}
    (hb : b.size ≤ maxOffset) (h : ∀ i ∈ is, i.Fits)
    (hread : b.read offset (encodeAll is).length = .ok (encodeAll is)) :
    (new b offset (encodeAll is).length).decoded = (is, none) := by
  rw [decoded, readAll_eq_itemsFrom hb h hread, collect_itemsFrom]

end Cursor

namespace Scene

/-- Carries out instructions up to the first failure, then meets the fault behind them; without one
tells how many there were. -/
def carryOut (decoded : List Instruction × Option DecodeError) : SceneM κ Nat := do
  decoded.1.forM execute
  match decoded.2 with
  | some e => throw (.protocol e)
  | none => pure decoded.1.length

theorem carryOut_cons (i : Instruction) (is : List Instruction) (fault : Option DecodeError) :
    (carryOut (i :: is, fault) : SceneM κ Nat) =
      execute i >>= fun _ => (· + 1) <$> carryOut (is, fault) := by
  unfold carryOut
  have hloop : (i :: is).forM execute = execute i >>= fun _ => (is.forM execute : SceneM κ PUnit) := rfl
  simp only [hloop, bind_assoc, map_bind]
  cases fault <;> rfl

/-- The items that a cursor comes to are carried out. -/
theorem runFrom_eq_carryOut (c : Cursor) (rounds applied : Nat) :
    (runFrom c rounds applied : SceneM κ Nat) =
      (applied + ·) <$> carryOut (Cursor.collect (c.items rounds).1) := by
  induction rounds generalizing c applied with
  | zero => rfl
  | succ rounds ih =>
    unfold runFrom
    rcases hx : c.next? with _ | ⟨e | i, d⟩
    · rw [Cursor.items_of_none hx]
      rfl
    · rw [Cursor.items_of_some hx]
      rfl
    · rw [Cursor.items_of_some hx, Cursor.collect, carryOut_cons, map_bind]
      simp only [ih, Functor.map_map]
      congr 1
      funext _
      congr 1
      funext n
      omega

/-- **Reading and carrying out in turn is reading all and carrying it out then.** -/
theorem run_eq_carryOut (c : Cursor) : (run c : SceneM κ Nat) = carryOut c.decoded := by
  rw [run, runFrom_eq_carryOut]
  simp only [Nat.zero_add, id_map']
  rfl

end Scene

namespace Host

open Instruction

variable {h k : Host} {a b is : List Instruction}

/-! ## One pass -/

/-- A host after a pass that leaves a scene: the closures released in it are reported. -/
def settle (h : Host) (s : Scene Reaction) : Host :=
  { h with
    scene := { s with callbacks := { s.callbacks with released := [] } }
    notices := h.notices ++ s.callbacks.released.map .released }

/-- A pass over a window of the shared buffer that reads all of it first. -/
def applyBatch (offset len : Nat) : HostM Nat := fun h =>
  let c := Cursor.new h.memory.buffer offset len
  match Scene.carryOut c.decoded h.scene with
  | .ok n s => .ok n ((h.look c).settle s)
  | .error e s => .error e { (h.look c).settle s with lastError := some e }

theorem look_scene (h : Host) (c : Cursor) : (h.look c).scene = h.scene := by
  unfold look
  split <;> rfl

theorem applyEdits_eq_applyBatch (offset len : Nat) : applyEdits offset len = applyBatch offset len := by
  funext h
  change EStateM.bind (attempt (onScene (Scene.run (Cursor.new h.memory.buffer offset len)))) _
    (h.look (Cursor.new h.memory.buffer offset len)) = _
  unfold EStateM.bind attempt onScene applyBatch
  simp only [look_scene, Scene.run_eq_carryOut]
  cases Scene.carryOut (Cursor.new h.memory.buffer offset len).decoded h.scene with
  | ok n s => rfl
  | error e s => rfl

/-! ## Two passes -/

/-- A pass over instructions, wherever they come from. -/
def pass (is : List Instruction) : HostM Nat := fun h =>
  match is.forM Scene.execute h.scene with
  | .ok _ s => .ok is.length (h.settle s)
  | .error e s => .error e { h.settle s with lastError := some e }

theorem pass_of_ok {s : Scene Reaction} {u : PUnit} (hs : is.forM Scene.execute h.scene = .ok u s) :
    pass is h = .ok is.length (h.settle s) := by
  rw [pass, hs]

theorem pass_of_error {s : Scene Reaction} {e : HostError}
    (hs : is.forM Scene.execute h.scene = .error e s) :
    pass is h = .error e { h.settle s with lastError := some e } := by
  rw [pass, hs]

/-- A report in between changes nothing in the end. -/
theorem settle_settle (h : Host) (s t : Scene Reaction) :
    (h.settle s).settle t = h.settle (t.preceded s.callbacks.released) := by
  simp only [settle, Scene.preceded, CallbackTable.preceded, List.map_append, List.append_assoc]

/-- The scene before a report is the scene after it with all that is reported put before. -/
theorem settle_scene_preceded (h : Host) (s : Scene Reaction) :
    (h.settle s).scene.preceded s.callbacks.released = s := by
  simp only [settle, Scene.preceded, CallbackTable.preceded, List.append_nil]

/-- **A pass over instructions may be divided.** -/
theorem pass_append (a b : List Instruction) :
    pass (a ++ b) = (do
      let n ← pass a
      let m ← pass b
      pure (n + m)) := by
  funext h
  have hloop : (a ++ b).forM Scene.execute =
      a.forM Scene.execute >>= fun _ => (b.forM Scene.execute : SceneM Reaction PUnit) :=
    List.forM_append
  cases ha : (a.forM Scene.execute : SceneM Reaction PUnit) h.scene with
  | error e s =>
    rw [bind_of_error (pass_of_error ha), pass_of_error]
    rw [hloop, bind_of_error ha]
  | ok _ s =>
    -- the second part runs on a scene without the closures that the first has released
    have hb := (Scene.oblivious_forM s.callbacks.released b).alike (s := (h.settle s).scene) (t := s)
      (settle_scene_preceded h s).symm
    rw [bind_of_ok (pass_of_ok ha)]
    cases hs : (b.forM Scene.execute : SceneM Reaction PUnit) (h.settle s).scene with
    | ok _ t =>
      rw [hs] at hb
      obtain ⟨_, hb, rfl⟩ := hb.of_ok
      rw [bind_of_ok (pass_of_ok hs), pass_of_ok (by rw [hloop, bind_of_ok ha, hb]), settle_settle,
        List.length_append]
      rfl
    | error e t =>
      rw [hs] at hb
      obtain ⟨_, hb, rfl⟩ := hb.of_error
      rw [bind_of_error (pass_of_error hs), pass_of_error (by rw [hloop, bind_of_ok ha, hb]),
        settle_settle]

/-! ## Streams in the shared buffer -/

/-- Are two hosts the same, apart from the shared buffer and its views? -/
def SameButMemory (h k : Host) : Prop := ∃ m, k = { h with memory := m }

theorem SameButMemory.trans {l : Host} : SameButMemory h k → SameButMemory k l → SameButMemory h l := by
  rintro ⟨_, rfl⟩ ⟨m, rfl⟩
  exact ⟨m, rfl⟩

theorem SameButMemory.join {l : Host} : SameButMemory h k → SameButMemory h l → SameButMemory k l := by
  rintro ⟨_, rfl⟩ ⟨m, rfl⟩
  exact ⟨m, rfl⟩

theorem SameButMemory.settle (s : Scene Reaction) :
    SameButMemory h k → SameButMemory (h.settle s) (k.settle s) := by
  rintro ⟨m, rfl⟩
  exact ⟨m, rfl⟩

theorem SameButMemory.withError (e : HostError) :
    SameButMemory h k → SameButMemory { h with lastError := some e } { k with lastError := some e } := by
  rintro ⟨m, rfl⟩
  exact ⟨m, rfl⟩

theorem sameButMemory_look (h : Host) (c : Cursor) : SameButMemory h (h.look c) := by
  unfold look
  split
  · exact ⟨h.memory, rfl⟩
  · exact ⟨h.memory.observe, rfl⟩

/-- Does a shared buffer hold the bytes of instructions at an offset? -/
structure Holds (m : MemoryBridge) (offset : Nat) (is : List Instruction) : Prop where
  size_le : m.buffer.size ≤ maxOffset
  read : m.buffer.read offset (encodeAll is).length = .ok (encodeAll is)

/-- A pass over the bytes of instructions in a shared buffer. -/
def applyEncoded (m : MemoryBridge) (offset : Nat) (is : List Instruction) : HostM Nat := do
  modify fun h => { h with memory := m }
  applyEdits offset (encodeAll is).length

/-- **A pass over the bytes of instructions is one over the instructions.** -/
theorem alike_applyEncoded {m : MemoryBridge} {offset : Nat} (hfits : ∀ i ∈ is, i.Fits)
    (hm : Holds m offset is) (hhk : SameButMemory h k) :
    Alike SameButMemory (pass is h) (applyEncoded m offset is k) := by
  have hdecoded := Cursor.decoded_of_read hm.size_le hfits hm.read
  obtain ⟨_, rfl⟩ := hhk
  have hlook : SameButMemory h (({ h with memory := m } : Host).look
      (Cursor.new m.buffer offset (encodeAll is).length)) :=
    SameButMemory.trans ⟨m, rfl⟩ (sameButMemory_look _ _)
  change Alike SameButMemory _ (applyEdits offset (encodeAll is).length { h with memory := m })
  rw [applyEdits_eq_applyBatch, applyBatch]
  simp only [hdecoded]
  cases hs : (is.forM Scene.execute : SceneM Reaction PUnit) h.scene with
  | ok u s =>
    have hall : Scene.carryOut (is, none) h.scene = .ok is.length s := bind_of_ok hs
    rw [pass_of_ok hs, hall]
    exact .ok _ (hlook.settle s)
  | error e s =>
    have hall : Scene.carryOut (is, none) h.scene = .error e s := bind_of_error hs _
    rw [pass_of_error hs, hall]
    exact .error e ((hlook.settle s).withError e)

/-- **Carrying out instructions while they are read is reading the whole window first, whatever it
holds; and a pass over the bytes of instructions may be divided**, if the second part is left out when
the first fails. -/
theorem applyEdits_batch :
    (∀ offset len, applyEdits offset len = applyBatch offset len) ∧
    ∀ (a b : List Instruction) (m m₁ m₂ : MemoryBridge) (offset offset₁ offset₂ : Nat),
      (∀ i ∈ a ++ b, i.Fits) → Holds m offset (a ++ b) → Holds m₁ offset₁ a → Holds m₂ offset₂ b →
      ∀ h, Alike SameButMemory (applyEncoded m offset (a ++ b) h)
        ((do
          let n ← applyEncoded m₁ offset₁ a
          let k ← applyEncoded m₂ offset₂ b
          pure (n + k) : HostM Nat) h) := by
  refine ⟨applyEdits_eq_applyBatch, fun a b m m₁ m₂ offset offset₁ offset₂ hfits hm hm₁ hm₂ h => ?_⟩
  obtain ⟨ha, hb⟩ := List.forall_mem_append.mp hfits
  have hself : SameButMemory h h := ⟨h.memory, rfl⟩
  have hone := alike_applyEncoded hfits hm hself
  refine hone.join (fun _ _ _ => SameButMemory.join) ?_
  rw [pass_append]
  refine Abreast.bind (alike_applyEncoded ha hm₁ hself) fun n h k hhk => ?_
  exact Abreast.bind (alike_applyEncoded hb hm₂ hhk) fun n' _ _ hhk => .ok _ hhk

/-- A node that is created in one pass and given up in the next. -/
theorem exists_applyEdits_batch : ∃ (a b : List Instruction) (m : MemoryBridge), a ≠ [] ∧ b ≠ [] ∧
    Holds m 2 (a ++ b) ∧ ∀ h, Alike SameButMemory (applyEncoded m 2 (a ++ b) h)
      ((do
        let n ← applyEncoded m 2 a
        let k ← applyEncoded m 7 b
        pure (n + k) : HostM Nat) h) := by
  let a : List Instruction := [.createPlaceholder ⟨5⟩]
  let b : List Instruction := [.freeId ⟨5⟩]
  let m : MemoryBridge :=
    { buffer := { bytes := (0 :: 1 :: encodeAll (a ++ b)).toArray, maxPages := 1 } }
  have hsize : m.buffer.size ≤ maxOffset := by decide +kernel
  have hm : Holds m 2 (a ++ b) := ⟨hsize, by decide +kernel⟩
  have hfits : ∀ i ∈ a ++ b, i.Fits := by simp [a, b, Instruction.Fits]
  exact ⟨a, b, m, by decide, by decide, hm, applyEdits_batch.2 a b m m m 2 2 7 hfits hm
    ⟨hsize, by decide +kernel⟩ ⟨hsize, by decide +kernel⟩⟩

end Host

end DomHost
