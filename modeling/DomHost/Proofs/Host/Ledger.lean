import DomHost.Proofs.Callback.Sheds
import DomHost.Proofs.Host.Batch
import DomHost.Proofs.Host.Consistency
import DomHost.Proofs.Scene.Frame

/-!
# The ledger of closures

A closure is registered and, later on, reported as released, and only then may its id be used again. A
release has many causes, and in one pass there may be many of them, but each is put down and reported
once, after the last listener of the closure is gone.

* **`Scene.sheds_execute`**: an instruction releases closures that were there, each once;
* `Host.ledger`: the registrations and the reported releases of a run, in order;
* `Host.Call.posts`: what a single call puts into the ledger;
* **`Host.accounted_foldl_apply`**: registrations and releases of a closure take turns.
-/

namespace DomHost

/-! ## Instructions -/

namespace Scene

variable {κ : Type}

theorem lasting_sheds : Lasting fun s t : Scene κ =>
    s.callbacks.Apart → ∃ out, s.callbacks.Sheds t.callbacks out := by
  refine ⟨⟨fun s hs => ⟨[], .refl hs⟩, fun hst htu hs => ?_⟩, fun s d hs => ⟨[], .refl hs⟩⟩
  obtain ⟨out, hout⟩ := hst hs
  obtain ⟨more, hmore⟩ := htu hout.apart
  exact ⟨out ++ more, hout.trans hmore⟩

/-- **An instruction releases closures that were there, each once, and no other closure is gone.** -/
theorem sheds_execute (i : Instruction) :
    Keeps (fun s t : Scene κ => s.callbacks.Apart → ∃ out, s.callbacks.Sheds t.callbacks out)
      (execute i) := by
  refine keeps_execute lasting_sheds (fun s t hc hs => ?_) i (fun _ s b hs => ⟨[], .refl hs⟩)
    fun _ _ _ s ts hs => ⟨[], .refl hs⟩
  obtain ⟨c, k, ha | hd⟩ := hc
  · exact ⟨[], .attach hs ha⟩
  · exact CallbackTable.Sheds.detach hs hd

theorem sheds_forM_execute (is : List Instruction) :
    Keeps (fun s t : Scene κ => s.callbacks.Apart → ∃ out, s.callbacks.Sheds t.callbacks out)
      (is.forM execute) := .forM lasting_sheds.toLasting sheds_execute is

end Scene

/-! ## Calls -/

namespace Host

/-- What is put down about a closure. -/
inductive Entry where
  | registered (c : CallbackId)
  | released (c : CallbackId)
deriving DecidableEq

/-- The closure that is meant. -/
def Entry.id : Entry → CallbackId
  | registered c => c
  | released c => c

/-- The closure whose release is reported. -/
def released? : Notice → Option CallbackId
  | .released c => some c
  | _ => none

namespace Call

/-- The closure that a call registers; none if it fails. -/
def registered (h : Host) : Call → List CallbackId
  | registerCallback id closure =>
    match Host.registerCallback id closure h with
    | .ok _ _ => [id]
    | .error _ _ => []
  | _ => []

/-- The releases that the compute module is told of in a call, in order. -/
def released (h : Host) (c : Call) : List CallbackId :=
  ((c.apply h).notices.drop h.notices.length).filterMap released?

/-- What a call puts into the ledger. -/
def entries (h : Host) (c : Call) : List Entry :=
  (c.registered h).map .registered ++ (c.released h).map .released

end Call

/-- The registrations and the reported releases of a run, in order. -/
def ledger (h : Host) : List Call → List Entry
  | [] => []
  | c :: rest => c.entries h ++ ledger (c.apply h) rest

variable {α : Type} {h k : Host} {c : Call} {calls : List Call}

/-- The closures are the same, and nothing is reported about them. -/
def Silent (h k : Host) : Prop :=
  k.scene.callbacks = h.scene.callbacks ∧
    ∃ new, k.notices = h.notices ++ new ∧ new.filterMap released? = []

/-- Some closures are released, and this is all that is reported about them. -/
def Reports (h k : Host) : Prop :=
  ∃ out t new, h.scene.callbacks.Sheds t out ∧ k.scene.callbacks = { t with released := [] } ∧
    k.notices = h.notices ++ new ∧ new.filterMap released? = out

theorem Silent.of_eq (hc : k.scene.callbacks = h.scene.callbacks) (hn : k.notices = h.notices) :
    h.Silent k := ⟨hc, [], by rw [hn, List.append_nil], rfl⟩

theorem lasting_silent : Lasting Silent where
  refl := fun _ => .of_eq rfl rfl
  trans := by
    rintro h k l ⟨hc, new, hn, hf⟩ ⟨hc', new', hn', hf'⟩
    refine ⟨hc'.trans hc, new ++ new', by rw [hn', hn, List.append_assoc], ?_⟩
    rw [List.filterMap_append, hf, hf', List.append_nil]

theorem Silent.reports (hk : h.Silent k) (ha : h.scene.callbacks.Apart)
    (hr : h.scene.callbacks.released = []) : h.Reports k := by
  obtain ⟨hc, new, hn, hf⟩ := hk
  refine ⟨[], h.scene.callbacks, new, .refl ha, ?_, hn, hf⟩
  rw [hc, ← hr]

/-! ### Calls that say nothing about closures -/

theorem lasting_callbacks : Scene.Lasting fun s t : Scene Reaction => t.callbacks = s.callbacks :=
  ⟨⟨fun _ => rfl, fun hst htu => htu.trans hst⟩, fun _ _ => rfl⟩

theorem silent_onScene {x : SceneM Reaction α}
    (hx : Keeps (fun s t => t.callbacks = s.callbacks) x) : Keeps Silent (onScene x) :=
  keeps_onScene fun s => (hx s).mono (fun _ _ hc _ => .of_eq hc rfl) fun _ hc _ => .of_eq hc rfl

theorem silent_onDocument (x : DocumentM α) : Keeps Silent (onScene (Scene.onDocument x)) :=
  silent_onScene (Scene.keeps_onDocument lasting_callbacks x)

theorem lenient_silent : Lenient Silent where
  toLasting := lasting_silent
  bindings _ _ := .of_eq rfl rfl
  listeners _ _ := .of_eq rfl rfl
  delegation _ _ := .of_eq rfl rfl

theorem silent_runTimers (now : Instant) : Keeps Silent (runTimers now) := by
  have hL := lasting_silent
  refine .bind hL (fun h => Ends.modifyGet (.of_eq rfl rfl)) fun due => ?_
  refine .bind hL (.modify fun h => ⟨rfl, due.map .timer, rfl, ?_⟩) fun _ => .pure hL _
  rw [List.filterMap_map]
  exact List.filterMap_eq_nil_iff.mpr fun _ _ => rfl

/-- Events are delivered to closures without a word about closures that are gone. -/
theorem silent_dispatch (hs : h.scene.IsSound True) (compute : Reaction) (event : NativeEvent) :
    Ends (dispatch compute event) h (fun _ => h.Silent) h.Silent := by
  obtain ⟨ts, hs⟩ := hs
  unfold dispatch
  refine Ends.get_bind ?_
  split
  · rename_i proceed v hv
    have hcalm : Document.Calm (react compute h.scene) h.document fun _ told =>
        told.filterMap released? = [] := by
      refine ⟨fun l hl => (hs.ours l hl).1, fun _ _ _ _ ht => ht, fun e told _ l _ ht => ?_⟩
      unfold react
      simp only
      split
      · exact ht
      · split
        · rw [List.filterMap_append, ht]
          rfl
        · split
          · rw [List.filterMap_append, ht]
            rfl
          · exact ht
    have htold := (Document.dispatch_keeps hcalm rfl hv).2
    exact ⟨rfl, v.caller, rfl, htold⟩
  · exact Ends.throw (lasting_silent.refl h)

/-! ### Calls that do -/

theorem reports_applyEdits (ha : h.scene.callbacks.Apart) (hr : h.scene.callbacks.released = [])
    (offset len : Nat) : Ends (applyEdits offset len) h (fun _ => h.Reports) h.Reports := by
  rw [applyEdits_eq_applyBatch]
  have hcarry : Keeps (fun s t : Scene Reaction => s.callbacks.Apart →
      ∃ out, s.callbacks.Sheds t.callbacks out)
      (Scene.carryOut (Cursor.new h.memory.buffer offset len).decoded) := by
    have hlast := (Scene.lasting_sheds (κ := Reaction)).toLasting
    refine .bind hlast (Scene.sheds_forM_execute _) fun _ => ?_
    split
    · exact .throw hlast _
    · exact .pure hlast _
  replace hcarry := hcarry h.scene
  have hnotices : (h.look (Cursor.new h.memory.buffer offset len)).notices = h.notices := by
    unfold look
    split <;> rfl
  have hsettle : ∀ s : Scene Reaction, (∃ out, h.scene.callbacks.Sheds s.callbacks out) →
      h.Reports ((h.look (Cursor.new h.memory.buffer offset len)).settle s) := by
    rintro s ⟨out, hout⟩
    refine ⟨out, s.callbacks, s.callbacks.released.map .released, hout, rfl, ?_, ?_⟩
    · rw [settle, hnotices]
    · rw [hout.released, hr, List.nil_append, List.filterMap_map]
      exact List.filterMap_some
  unfold Ends at hcarry
  unfold Ends applyBatch
  simp only
  cases hs : Scene.carryOut (Cursor.new h.memory.buffer offset len).decoded h.scene with
  | ok n s =>
    rw [hs] at hcarry
    exact hsettle s (hcarry ha)
  | error e s =>
    rw [hs] at hcarry
    exact hsettle s (hcarry ha)

theorem reports_disposeCallback (ha : h.scene.callbacks.Apart) (hr : h.scene.callbacks.released = [])
    (id : CallbackId) : Ends (disposeCallback id) h (fun _ => h.Reports) h.Reports := by
  have hself : h.Reports h := (lasting_silent.refl h).reports ha hr
  have hdispose : Ends (withCallbacks (·.dispose id)) h
      (fun _ k => (∃ out, h.scene.callbacks.Sheds k.scene.callbacks out) ∧ k.notices = h.notices)
      h.Reports := by
    refine Ends.get_bind ?_
    split
    · rename_i b t ht
      exact ⟨CallbackTable.Sheds.dispose ha ht, rfl⟩
    · exact Ends.throw hself
  refine hdispose.bind ?_
  rintro b k ⟨⟨out, hout⟩, hn⟩
  have hreport : Ends reportReleased k (fun _ => h.Reports) h.Reports := by
    refine Ends.modify ⟨out, k.scene.callbacks, k.scene.callbacks.released.map .released, hout, rfl, ?_, ?_⟩
    · rw [← hn]
      rfl
    · rw [hout.released, hr, List.nil_append, List.filterMap_map]
      exact List.filterMap_some
  exact hreport.bind fun _ _ hk => Ends.pure hk

theorem ends_registerCallback_exact (h : Host) (id : CallbackId) (closure : Reaction) :
    Ends (registerCallback id closure) h
      (fun _ k => h.scene.callbacks.register id closure = .ok k.scene.callbacks ∧ k.notices = h.notices)
      (· = h) := by
  unfold registerCallback
  refine Ends.get_bind ?_
  cases ht : h.scene.callbacks.register id closure with
  | ok t =>
    have hput : Ends (modify fun h => { h with scene := { h.scene with callbacks := t } } : HostM PUnit) h
        (fun _ k => k.scene.callbacks = t ∧ k.notices = h.notices) (· = h) := Ends.modify ⟨rfl, rfl⟩
    simp only [ht, Except.map]
    exact hput.bind fun _ _ hk => Ends.pure ⟨congrArg Except.ok hk.1.symm, hk.2⟩
  | error e =>
    simp only [ht, Except.map]
    exact Ends.throw rfl

/-- A call other than a registration reports what it releases. -/
theorem reports_apply (hs : h.scene.IsSound True) (hr : h.scene.callbacks.released = []) (c : Call)
    (hc : ∀ id closure, c ≠ .registerCallback id closure) : h.Reports (c.apply h) := by
  have ha : h.scene.callbacks.Apart := hs.elim fun _ hs => hs.callbacks.apart
  have hL := lasting_silent
  have hdiscard : ∀ {α : Type} {x : HostM α}, Ends x h (fun _ => h.Reports) h.Reports →
      Ends (discard x) h (fun _ => h.Reports) h.Reports :=
    fun hx => hx.discard.mono (fun _ _ ⟨_, hq⟩ => hq) fun _ he => he
  refine Call.apply_of_ends ?_
  -- all but two of the other calls have nothing to report
  by_cases hpass : ∃ offset len, c = .applyEdits offset len
  · obtain ⟨offset, len, rfl⟩ := hpass
    exact hdiscard (reports_applyEdits ha hr offset len)
  by_cases hdispose : ∃ id, c = .disposeCallback id
  · obtain ⟨id, rfl⟩ := hdispose
    exact hdiscard (reports_disposeCallback ha hr id)
  suffices hq : Ends c.run h (fun _ => h.Silent) h.Silent from
    hq.mono (fun _ _ hq => hq.reports ha hr) fun _ hq => hq.reports ha hr
  have hnote : ∀ {α : Type} {f : Host → α × Host}, ((f h).2.scene = h.scene ∧ (f h).2.notices = h.notices) →
      Ends (discard (modifyGet f : HostM α)) h (fun _ => h.Silent) h.Silent :=
    fun hf => (Ends.modifyGet (Q := fun _ => h.Silent) (.of_eq (congrArg _ hf.1) hf.2)).discard.mono
      (fun _ _ ⟨_, hq⟩ => hq) fun _ he => he
  cases c with
  | start root elements => exact keeps_start lenient_silent root elements h
  | createNode id =>
    have hcreate : Keeps Silent (createNode id) :=
      .bind hL (silent_onDocument _) fun r => .bind hL (keeps_tie lenient_silent id r) fun _ => .pure hL r
    exact hcreate.discard h
  | setNode id r =>
    have hset : Keeps Silent (setNode id r) :=
      .bind hL (silent_onDocument _).discard fun _ => keeps_tie lenient_silent id r
    exact hset h
  | saveTemplate number ds =>
    exact silent_onScene (Scene.keeps_saveTemplate lasting_callbacks (fun _ _ => rfl) number ds) h
  | updateMemory buffer => exact Ends.modify (.of_eq rfl rfl)
  | changeMemory buffer => exact Ends.modify (.of_eq rfl rfl)
  | applyEdits offset len => exact absurd ⟨offset, len, rfl⟩ hpass
  | takeLastError => exact hnote ⟨rfl, rfl⟩
  | registerCallback id closure => exact absurd rfl (hc id closure)
  | disposeCallback id => exact absurd ⟨id, rfl⟩ hdispose
  | setTimeout delay => exact hnote ⟨rfl, rfl⟩
  | setInterval period => exact hnote ⟨rfl, rfl⟩
  | clearTimer token => exact hnote ⟨rfl, rfl⟩
  | runTimers now => exact (silent_runTimers now).discard h
  | dispatch compute event =>
    exact (silent_dispatch hs compute event).discard.mono (fun _ _ ⟨_, hq⟩ => hq) fun _ he => he

/-! ## Taking turns -/

/-- The registrations and releases of a closure in a list take turns. Before the list the closure is
there or not, and so it is behind it. -/
def TakeTurns (id : CallbackId) (before : Bool) (l : List Entry) (behind : Bool) : Prop :=
  ∃ n, (if before then [.registered id] else []) ++ l.filter (·.id == id) =
    (List.replicate n [.registered id, .released id]).flatten ++ if behind then [.registered id] else []

namespace TakeTurns

variable {id d : CallbackId} {before between behind : Bool} {l l' : List Entry} {out : List CallbackId}

theorem nil (id : CallbackId) (before : Bool) : TakeTurns id before [] before :=
  ⟨0, by rw [List.filter_nil, List.append_nil]; rfl⟩

theorem append (h : TakeTurns id before l between) (h' : TakeTurns id between l' behind) :
    TakeTurns id before (l ++ l') behind := by
  obtain ⟨n, hn⟩ := h
  obtain ⟨n', hn'⟩ := h'
  refine ⟨n + n', ?_⟩
  rw [List.filter_append, ← List.append_assoc, hn, List.append_assoc, hn', ← List.append_assoc,
    List.replicate_add, List.flatten_append]

/-- A registration of a closure that is not there. -/
theorem registered (hb : d = id → before = false) :
    TakeTurns d before [.registered id] (before || d == id) := by
  by_cases hd : d = id
  · subst hd
    rw [hb rfl]
    exact ⟨0, by simp [Entry.id]⟩
  · refine ⟨0, ?_⟩
    have hid : (Entry.id (.registered id) == d) = false := by simpa [Entry.id] using fun he => hd he.symm
    have hd' : (d == id) = false := by simpa using hd
    simp [hid, hd']

/-- Releases of closures that are there, each once. -/
theorem releases (hn : out.Nodup) (hout : id ∈ out → before = true) :
    TakeTurns id before (out.map .released) (before && !decide (id ∈ out)) := by
  have hfilter : (out.map Entry.released).filter (·.id == id) =
      if id ∈ out then [.released id] else [] := by
    have hcomp : (fun e : Entry => e.id == id) ∘ Entry.released = (· == id) := rfl
    rw [List.filter_map, hcomp, List.filter_beq]
    by_cases hm : id ∈ out
    · rw [List.count_eq_one_of_mem hn hm, if_pos hm]
      rfl
    · rw [List.count_eq_zero_of_not_mem hm, if_neg hm]
      rfl
  unfold TakeTurns
  rw [hfilter]
  by_cases hm : id ∈ out
  · rw [hout hm]
    exact ⟨1, by simp [hm]⟩
  · exact ⟨0, by simp [hm]⟩

end TakeTurns

/-- **A call leaves no release unreported, and continues the turns of every closure.** -/
theorem Call.posts (hs : h.scene.IsSound True) (hr : h.scene.callbacks.released = []) (c : Call) :
    (c.apply h).scene.callbacks.released = [] ∧
      (∀ id ∈ c.released h, (c.apply h).scene.callbacks.contains id = false) ∧
      ∀ id, TakeTurns id (h.scene.callbacks.contains id) (c.entries h)
        ((c.apply h).scene.callbacks.contains id) := by
  by_cases hreg : ∃ id closure, c = .registerCallback id closure
  · obtain ⟨id, closure, rfl⟩ := hreg
    have ha : h.scene.callbacks.Apart := hs.elim fun _ hs => hs.callbacks.apart
    have hrun := ends_registerCallback_exact h id closure
    unfold Ends at hrun
    cases hk : Host.registerCallback id closure h with
    | ok u k =>
      obtain ⟨ht, hn⟩ : _ ∧ _ := by rwa [hk] at hrun
      obtain ⟨-, hrel, hnot, hcontains⟩ := ha.register ht
      have happly : (Call.registerCallback id closure).apply h = k := by
        rw [apply, run, hk]
      have hregistered : (Call.registerCallback id closure).registered h = [id] := by
        rw [registered, hk]
      have hreleased : (Call.registerCallback id closure).released h = [] := by
        rw [released, happly, hn, List.drop_length, List.filterMap_nil]
      rw [entries, hregistered, hreleased, happly, hrel]
      refine ⟨hr, by simp, fun d => ?_⟩
      have hd : k.scene.callbacks.contains d = (h.scene.callbacks.contains d || d == id) := by
        rw [Bool.eq_iff_iff, hcontains, Bool.or_eq_true, beq_iff_eq]
      rw [hd]
      exact .registered fun he => by rw [he]; simpa using hnot
    | error e k =>
      obtain rfl : k = h := by rwa [hk] at hrun
      have happly : (Call.registerCallback id closure).apply k = k := by
        rw [apply, run, hk]
      have hregistered : (Call.registerCallback id closure).registered k = [] := by rw [registered, hk]
      have hreleased : (Call.registerCallback id closure).released k = [] := by
        rw [released, happly, List.drop_length, List.filterMap_nil]
      rw [entries, hregistered, hreleased, happly]
      exact ⟨hr, by simp, fun d => .nil d _⟩
  · obtain ⟨out, t, new, hout, ht, hn, hnew⟩ :=
      reports_apply hs hr c fun id closure he => hreg ⟨id, closure, he⟩
    have hreleased : c.released h = out := by rw [released, hn, List.drop_left, hnew]
    have hregistered : c.registered h = [] := by
      cases c with
      | registerCallback id closure => exact absurd ⟨id, closure, rfl⟩ hreg
      | _ => rfl
    have hcontains : ∀ d, (c.apply h).scene.callbacks.contains d =
        (h.scene.callbacks.contains d && !decide (d ∈ out)) := fun d => by
      rw [ht, Bool.eq_iff_iff, Bool.and_eq_true, Bool.not_eq_true', decide_eq_false_iff_not]
      exact hout.contains d
    refine ⟨by rw [ht], fun d hd => ?_, fun d => ?_⟩
    · rw [hcontains]
      simp [hreleased ▸ hd]
    · rw [entries, hregistered, hreleased, hcontains]
      exact .releases hout.nodup (hout.subset d)

/-! ## All calls -/

/-- The ledger of a run is in order. -/
structure Accounted (h : Host) (calls : List Call) : Prop where
  /-- Registrations and releases of a closure take turns, and the closure is there as long as the last
  of them is a registration. -/
  turns : ∀ id, ∃ n, (h.ledger calls).filter (·.id == id) =
    (List.replicate n [.registered id, .released id]).flatten ++
      if (calls.foldl Call.apply h).scene.callbacks.contains id then [.registered id] else []
  /-- When the release of a closure is reported, no listener calls the closure. -/
  unused : ∀ before c, before ++ [c] <+: calls → ∀ id ∈ c.released (before.foldl Call.apply h),
    (c.apply (before.foldl Call.apply h)).document.listeners.uses id = 0
  /-- No call leaves a release unreported. -/
  reported : ∀ before, before <+: calls →
    (before.foldl Call.apply h).scene.callbacks.released = []

theorem takeTurns_ledger (hs : h.scene.IsSound True) (hr : h.scene.callbacks.released = [])
    (hp : h.Permits calls) (id : CallbackId) :
    TakeTurns id (h.scene.callbacks.contains id) (h.ledger calls)
      ((calls.foldl Call.apply h).scene.callbacks.contains id) := by
  induction calls generalizing h with
  | nil => exact .nil id _
  | cons c rest ih =>
    obtain ⟨hc, hrest⟩ := hp
    obtain ⟨hr', -, hturns⟩ := c.posts hs hr
    exact (hturns id).append (ih (isSound_apply hs hc) hr' hrest)

theorem released_foldl_apply (hs : h.scene.IsSound True) (hr : h.scene.callbacks.released = [])
    (hp : h.Permits calls) : (calls.foldl Call.apply h).scene.callbacks.released = [] := by
  induction calls generalizing h with
  | nil => exact hr
  | cons c rest ih => exact ih (isSound_apply hs hp.1) (c.posts hs hr).1 hp.2

theorem permits_append {before after : List Call} :
    h.Permits (before ++ after) ↔ h.Permits before ∧ (before.foldl Call.apply h).Permits after := by
  induction before generalizing h with
  | nil => simp [Permits]
  | cons c rest ih => simp [Permits, ih, and_assoc]

/-- **After any calls on a host of a document without listeners the ledger of its closures is in
order.** -/
theorem accounted_foldl_apply {d : Document} (hd : d.store.WellFormed) (hl : d.listeners = {})
    (buffer : SharedBuffer) (delegates : Bool) (hp : (opened d buffer delegates).Permits calls) :
    (opened d buffer delegates).Accounted calls := by
  have hs : (opened d buffer delegates).scene.IsSound True := ⟨[], Scene.sound_of_over ⟨hl, hd⟩⟩
  refine ⟨fun id => takeTurns_ledger hs rfl hp id, ?_, ?_⟩
  · rintro before c ⟨after, rfl⟩ id hid
    rw [List.append_assoc, permits_append] at hp
    have hbefore := isSound_foldl_apply hs hp.1
    have hgone := (c.posts hbefore (released_foldl_apply hs rfl hp.1)).2.1 id hid
    obtain ⟨ts, hafter⟩ := isSound_apply hbefore hp.2.1
    refine hafter.callbacks.unused id ?_
    rw [CallbackTable.contains, Bool.or_eq_false_iff, Option.isSome_eq_false_iff,
      Option.isSome_eq_false_iff, Option.isNone_iff_eq_none, Option.isNone_iff_eq_none] at hgone
    exact hgone.2
  · rintro before ⟨after, rfl⟩
    exact released_foldl_apply hs rfl (permits_append.mp hp).1

/-- A closure that is registered, used by a listener, and released with the node of the listener. -/
theorem exists_accounted : ∃ calls, (opened .new (.new 1 1) false).Permits calls ∧
    (opened .new (.new 1 1) false).ledger calls = [.registered ⟨7⟩, .released ⟨7⟩] ∧
    (opened .new (.new 1 1) false).Accounted calls := by
  let edits := Instruction.encodeAll
    [.createPlaceholder ⟨1⟩, .addListener ⟨1⟩ "click" ⟨7⟩ false, .remove ⟨1⟩]
  refine ⟨[.registerCallback ⟨7⟩ fun _ => {},
    .changeMemory { bytes := edits.toArray, maxPages := 1 }, .applyEdits 0 edits.length], ?_, ?_, ?_⟩
  · decide +kernel
  · decide +kernel
  · exact accounted_foldl_apply Document.over_new.store rfl (.new 1 1) false (by decide +kernel)

end Host

end DomHost
