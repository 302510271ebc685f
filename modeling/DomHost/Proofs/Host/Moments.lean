import DomHost.Proofs.Host.Batch
import DomHost.Proofs.Host.Consistency

/-!
# The moments of a run

Between two calls a host rests, and within a pass it rests after each instruction. The scenes at all
these moments, one after the other, are what a run looks like from outside.

* `Scene.along`: the scenes that instructions lead through, up to the first fault;
* **`Host.scene_apply_applyEdits`**: the last of them is where the pass ends;
* `Host.moments`: the scenes of a run;
* **`Host.isSound_of_mem_moments`**: each of them is sound;
* **`Host.isChain_moments`**: what every instruction and every call do is what happens from one to the next.
-/

namespace DomHost

namespace Scene

variable {κ : Type} {closed : Prop} {s t : Scene κ} {R : Scene κ → Scene κ → Prop}

/-- The scenes that instructions lead through, one after each, up to the first fault. -/
def along (s : Scene κ) : List Instruction → List (Scene κ)
  | [] => []
  | i :: rest =>
    match execute i s with
    | .ok _ t => t :: t.along rest
    | .error _ t => [t]

/-- **What every instruction keeps holds of all the scenes.** -/
theorem of_mem_along {P : Scene κ → Prop} (hexec : ∀ s i, P s → Ends (execute i) s (fun _ => P) P) (hs : P s)
    {is : List Instruction} (ht : t ∈ s.along is) : P t := by
  induction is generalizing s with
  | nil => simp [along] at ht
  | cons i rest ih =>
    have he := hexec s i hs
    unfold Ends at he
    rw [along] at ht
    split at ht
    · rename_i u hu
      rw [hu] at he
      rcases List.mem_cons.mp ht with rfl | ht
      · exact he
      · exact ih he ht
    · rename_i u hu
      rw [hu] at he
      rw [List.mem_singleton.mp ht]
      exact he

theorem isSound_of_mem_along (h : s.IsSound closed) {is : List Instruction} (ht : t ∈ s.along is) :
    t.IsSound closed := of_mem_along (fun _ i hs => ends_execute i hs) h ht

/-- **What every instruction does is what happens from one scene to the next.** -/
theorem isChain_along (hexec : ∀ s i, s.IsSound closed → Ends (execute i) s (fun _ => R s) (R s))
    (h : s.IsSound closed) (is : List Instruction) : (s :: s.along is).IsChain R := by
  induction is generalizing s with
  | nil => exact List.isChain_singleton s
  | cons i rest ih =>
    have hs := ends_execute i h
    have hr := hexec s i h
    unfold Ends at hs hr
    rw [along]
    split
    · rename_i u hu
      rw [hu] at hs hr
      exact .cons_cons hr (ih hs)
    · rename_i u hu
      rw [hu] at hr
      exact List.isChain_pair.mpr hr

/-- The last of the scenes is where carrying out the instructions ends. -/
theorem ends_forM_execute (s : Scene κ) (is : List Instruction) :
    Ends (is.forM execute) s (fun _ t => t = (s :: s.along is).getLast (List.cons_ne_nil _ _))
      fun t => t = (s :: s.along is).getLast (List.cons_ne_nil _ _) := by
  induction is generalizing s with
  | nil => exact Ends.pure rfl
  | cons i rest ih =>
    change Ends (execute i >>= fun _ => rest.forM execute) s _ _
    unfold Ends
    cases hi : execute i s with
    | error e t =>
      rw [bind_of_error hi]
      simp only [along, hi]
      rfl
    | ok u t =>
      rw [bind_of_ok hi]
      simp only [along, hi, List.getLast_cons_cons]
      exact ih t

end Scene

namespace Host

variable {closed : Prop} {h : Host} {calls : List Call} {R : Scene Reaction → Scene Reaction → Prop}
  {s : Scene Reaction}

/-- The scenes that a pass leads through, one after each instruction. -/
def Call.along (h : Host) : Call → List (Scene Reaction)
  | applyEdits offset len => h.scene.along (Cursor.new h.memory.buffer offset len).decoded.1
  | _ => []

/-- The scenes of a run, in order: the first one, one after each instruction and one after each call. -/
def moments (h : Host) : List Call → List (Scene Reaction)
  | [] => [h.scene]
  | c :: rest => h.scene :: (c.along h ++ moments (c.apply h) rest)

/-- A scene after a report of the closures that were released. -/
def reported (s : Scene Reaction) : Scene Reaction :=
  { s with callbacks := { s.callbacks with released := [] } }

theorem ends_carryOut (s : Scene Reaction) (decoded : List Instruction × Option DecodeError) :
    Ends (Scene.carryOut decoded) s
      (fun _ t => t = (s :: s.along decoded.1).getLast (List.cons_ne_nil _ _))
      fun t => t = (s :: s.along decoded.1).getLast (List.cons_ne_nil _ _) := by
  unfold Scene.carryOut
  refine (s.ends_forM_execute decoded.1).bind fun _ t ht => ?_
  split
  · exact Ends.throw ht
  · exact Ends.pure ht

/-- **A pass ends where its last instruction leads, with all releases reported.** -/
theorem scene_apply_applyEdits (h : Host) (offset len : Nat) :
    ((Call.applyEdits offset len).apply h).scene =
      reported ((h.scene :: (Call.applyEdits offset len).along h).getLast (List.cons_ne_nil _ _)) := by
  refine Call.apply_of_ends (P := fun k => k.scene = _) ?_
  suffices hpass : Ends (applyEdits offset len) h (fun _ k => k.scene = _) (fun k => k.scene = _) from
    hpass.discard.mono (fun _ _ ⟨_, hk⟩ => hk) fun _ hk => hk
  have hcarry := ends_carryOut h.scene (Cursor.new h.memory.buffer offset len).decoded
  rw [applyEdits_eq_applyBatch]
  unfold Ends applyBatch
  unfold Ends at hcarry
  simp only
  cases hs : Scene.carryOut (Cursor.new h.memory.buffer offset len).decoded h.scene with
  | ok n t =>
    rw [hs] at hcarry
    exact congrArg reported hcarry
  | error e t =>
    rw [hs] at hcarry
    exact congrArg reported hcarry

/-! ## All moments -/

theorem head?_moments (h : Host) (calls : List Call) : (h.moments calls).head? = some h.scene := by
  cases calls <;> rfl

/-- The scenes that later calls lead through come at the end. -/
theorem moments_suffix (h : Host) (calls later : List Call) :
    (calls.foldl Call.apply h).moments later <:+ h.moments (calls ++ later) := by
  induction calls generalizing h with
  | nil => exact List.suffix_refl _
  | cons c rest ih =>
    exact (ih (c.apply h)).trans ((List.suffix_append _ _).trans (List.suffix_cons _ _))

/-- The scene after all calls is one of them. -/
theorem scene_foldl_apply_mem_moments (h : Host) (calls : List Call) :
    (calls.foldl Call.apply h).scene ∈ h.moments calls := by
  have hs := h.moments_suffix calls []
  rw [List.append_nil] at hs
  exact hs.subset (List.mem_singleton_self _)

/-- A scene of a run is that of a host behind some of the calls, or one in the pass that comes next. -/
theorem exists_of_mem_moments (hm : s ∈ h.moments calls) : ∃ before, before <+: calls ∧
    (s = (before.foldl Call.apply h).scene ∨
      ∃ offset len, s ∈ (Call.applyEdits offset len).along (before.foldl Call.apply h)) := by
  induction calls generalizing h with
  | nil => exact ⟨[], List.prefix_refl _, Or.inl (List.mem_singleton.mp hm)⟩
  | cons c rest ih =>
    rcases List.mem_cons.mp hm with rfl | hm
    · exact ⟨[], List.nil_prefix, Or.inl rfl⟩
    rcases List.mem_append.mp hm with hm | hm
    · cases c with
      | applyEdits offset len => exact ⟨[], List.nil_prefix, Or.inr ⟨offset, len, hm⟩⟩
      | _ => simp [Call.along] at hm
    · obtain ⟨before, hb, hs⟩ := ih hm
      exact ⟨c :: before, (List.prefix_cons_inj c).mpr hb, hs⟩

/-- **Every scene of a run is sound.** -/
theorem isSound_of_mem_moments (hs : h.scene.IsSound closed) (hp : h.Permits calls) (hm : s ∈ h.moments calls) :
    s.IsSound closed := by
  induction calls generalizing h with
  | nil => rwa [List.mem_singleton.mp hm]
  | cons c rest ih =>
    obtain ⟨hc, hrest⟩ := hp
    rcases List.mem_cons.mp hm with rfl | hm
    · exact hs
    rcases List.mem_append.mp hm with hm | hm
    · cases c with
      | applyEdits offset len => exact Scene.isSound_of_mem_along hs hm
      | _ => simp [Call.along] at hm
    · exact ih (isSound_apply hs hc) hrest hm

/-- **From one scene of a run to the next happens what an instruction or a call does.** -/
theorem isChain_moments (hexec : ∀ s i, s.IsSound closed → Ends (Scene.execute i) s (fun _ => R s) (R s))
    (hcall : ∀ (h : Host) (c : Call), h.scene.IsSound closed → c.Permitted h →
      (∀ offset len, c ≠ .applyEdits offset len) → R h.scene (c.apply h).scene)
    (hreport : ∀ s, s.IsSound closed → R s (reported s)) (hs : h.scene.IsSound closed) (hp : h.Permits calls) :
    (h.moments calls).IsChain R := by
  induction calls generalizing h with
  | nil => exact List.isChain_singleton _
  | cons c rest ih =>
    obtain ⟨hc, hrest⟩ := hp
    have hnext := ih (isSound_apply hs hc) hrest
    by_cases hpass : ∃ offset len, c = .applyEdits offset len
    · obtain ⟨offset, len, rfl⟩ := hpass
      have hchain := Scene.isChain_along hexec hs (Cursor.new h.memory.buffer offset len).decoded.1
      refine List.IsChain.append hchain hnext fun x hx y hy => ?_
      rw [head?_moments, scene_apply_applyEdits] at hy
      obtain rfl := Option.some.inj hy
      have hx' := List.getLast?_eq_some_getLast (List.cons_ne_nil h.scene _) ▸ hx
      obtain rfl := Option.some.inj hx'
      have hall : ∀ s ∈ h.scene :: (Call.applyEdits offset len).along h, s.IsSound closed :=
        List.forall_mem_cons.mpr ⟨hs, fun _ hm => Scene.isSound_of_mem_along hs hm⟩
      exact hreport _ (hall _ (List.getLast_mem _))
    · have hone := hcall h c hs hc fun offset len he => hpass ⟨offset, len, he⟩
      have hnone : c.along h = [] := by
        cases c with
        | applyEdits offset len => exact absurd ⟨offset, len, rfl⟩ hpass
        | _ => rfl
      rw [moments, hnone, List.nil_append]
      refine hnext.cons fun y hy => ?_
      rw [head?_moments] at hy
      exact Option.some.inj hy ▸ hone

end Host

end DomHost
