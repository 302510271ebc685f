import DomHost.Proofs.Along
import DomHost.Proofs.Host.Attended
import DomHost.Proofs.Host.Leftovers
import DomHost.Proofs.Scene.Elements

/-!
# The elements of a run

A run changes elements by the instructions of its passes, of which each is carried out in the scene that the one
before it has left, and by the templates that it defines. What holds of elements that are created and read holds of
every element at every moment just if it holds of all that is written to or built in this way, and where it has held
until then a simpler condition may tell so.

* `Scene.steps`, `Host.steps`: the instructions that are carried out, each with the scene it finds;
* `Document.Origin.fits_nodes`: the elements of a document as it is made;
* `Scene.Judges`: a condition that tells what holds of all that an instruction has written to or built;
* **`Scene.every_along_iff`**, `Host.Call.every_apply_iff`: a pass, and any call;
* **`Host.every_moments_iff`**: a run.
-/

namespace DomHost

variable {P : Element → Prop}

theorem Document.Origin.fits_nodes (hP : Element.Robust P) (o : Document.Origin) : ∀ x ∈ o.nodes, x.Fits P := by
  cases o with
  | new =>
    intro x hx
    obtain ⟨tag, -, rfl⟩ := List.mem_map.mp hx
    exact hP.bare _ _ _
  | empty => exact fun x hx => absurd hx List.not_mem_nil
  | html text => exact hP.read _

namespace Scene

variable {κ : Type} {s : Scene κ} {Q : Scene κ → Instruction → Prop}

/-- The instructions that are carried out, up to the first fault, each with the scene that it finds. -/
def steps (s : Scene κ) : List Instruction → List (Scene κ × Instruction)
  | [] => []
  | i :: rest =>
    (s, i) ::
      match execute i s with
      | .ok _ t => t.steps rest
      | .error _ _ => []

/-- Where something holds of every element, a condition tells whether it holds of what an instruction has written to
or built. -/
def Judges (P : Element → Prop) (Q : Scene κ → Instruction → Prop) : Prop :=
  ∀ s : Scene κ, s.store.Every P → ∀ i, (∀ e ∈ s.written i, P e) ↔ Q s i

/-- **In a pass something holds of every element just if it holds of all that is written to or built.** -/
theorem every_along_iff (hP : Element.Robust P) (hQ : Judges P Q) (hs : s.Coherent) (h : s.store.Every P)
    (is : List Instruction) : (∀ t ∈ s.along is, t.store.Every P) ↔ ∀ x ∈ s.steps is, Q x.1 x.2 := by
  induction is generalizing s with
  | nil => simp [along, steps]
  | cons i rest ih =>
    have hjudge := hQ s h i
    have hstep := ends_execute_every hP hs.wellFormed h i
    have hcoherent := hs.ends_execute i
    rw [along, steps]
    cases hx : execute i s with
    | ok u t =>
      simp only [List.forall_mem_cons]
      rw [← hjudge, ← hstep.ok hx]
      exact and_congr_right fun ht => ih (hcoherent.ok hx) ht
    | error err t =>
      simp only [List.forall_mem_cons]
      rw [← hjudge, ← hstep.error hx]
      simp

end Scene

namespace Host

variable {h k : Host} {c : Call} {calls : List Call} {p : NodeRef → Prop} {d : Document} {o : Document.Origin}
  {Q : Scene Reaction → Instruction → Prop}

/-- The instructions that a call carries out, each with the scene that it finds. -/
def Call.steps (h : Host) : Call → List (Scene Reaction × Instruction)
  | applyEdits offset len => h.scene.steps (Cursor.new h.memory.buffer offset len).decoded.1
  | saveTemplate number ds => [(h.scene, .saveTemplate number ds)]
  | _ => []

/-- The instructions that are carried out in a run, each with the scene that it finds. -/
def steps (h : Host) (calls : List Call) : List (Scene Reaction × Instruction) :=
  DomHost.along Call.apply Call.steps h calls

/-! ## Calls -/

theorem sustains_onScene {α : Type} {x : SceneM Reaction α} (hx : Keeps (Scene.Sustains P) x) :
    Keeps (fun h k : Host => h.scene.store.Sustains P k.scene.store) (onScene x) :=
  keeps_onScene fun s => (hx s).mono (fun _ _ ht _ => ht) fun _ ht _ => ht

/-- **A call that carries out no instruction keeps what holds of every element.** -/
theorem Call.every_apply (h₀ : h.scene.store.Every P) (hc : ∀ offset len, c ≠ .applyEdits offset len)
    (ht : ∀ number ds, c ≠ .saveTemplate number ds) : (c.apply h).scene.store.Every P := by
  have hL : Lasting fun h k : Host => h.scene.store.Sustains P k.scene.store :=
    ⟨fun _ hs => hs, fun hst htu hs => htu (hst hs)⟩
  have hS := Store.lasting_sustains (P := P)
  have hkeep : Keeps (fun h k : Host => h.scene.store.Sustains P k.scene.store) c.run →
      (c.apply h).scene.store.Every P := fun hk =>
    Call.apply_of_ends (P := fun k => k.scene.store.Every P) ((hk h).mono (fun _ _ hs => hs h₀) fun _ hs => hs h₀)
  have hsame : c.proceeds h = true → (c.apply h).scene.store.Every P := fun hproceeds => by
    rw [(Call.sameNodes_of_proceeds hproceeds hc).1]
    exact h₀
  have htie : ∀ id r, Keeps (Scene.Sustains (κ := Reaction) P) (Scene.tie id r) := fun id r =>
    Scene.onNodes_modify hS fun _ => rfl
  cases c with
  | start root elements =>
    exact hkeep ((keeps_start lenient_store root elements).mono fun _ _ hs hevery => hs ▸ hevery)
  | createNode id =>
    have hcreate : Keeps (Scene.Sustains (κ := Reaction) P)
        (Scene.onDocument (Document.onStore (Store.createComment placeholderText))) :=
      Scene.onNodes_onStore (Store.sustains_create (d := .comment placeholderText) trivial)
    refine hkeep (Keeps.discard (.bind hL (sustains_onScene hcreate) fun r => ?_))
    exact .bind hL (sustains_onScene (htie id r)) fun _ => .pure hL r
  | setNode id r =>
    have hrequire : Keeps (Scene.Sustains (κ := Reaction) P) (Scene.onDocument (Document.onStore (Store.require r))) :=
      Scene.onNodes_onStore (Store.keeps_require hS r)
    exact hkeep (.bind hL (sustains_onScene hrequire).discard fun _ => sustains_onScene (htie id r))
  | saveTemplate number ds => exact absurd rfl (ht number ds)
  | applyEdits offset len => exact absurd rfl (hc offset len)
  | _ => exact hsame rfl

/-- A template that is defined by a call. -/
theorem Call.every_apply_saveTemplate_iff (hP : Element.Robust P) (hs : h.scene.Coherent)
    (h₀ : h.scene.store.Every P) (number : UInt32) (ds : List Descriptor) :
    ((Call.saveTemplate number ds).apply h).scene.store.Every P ↔
      ∀ e ∈ h.scene.written (.saveTemplate number ds), P e := by
  have hend := Scene.ends_execute_every hP hs.wellFormed h₀ (.saveTemplate number ds)
  refine Call.apply_of_ends (c := .saveTemplate number ds) (P := fun k : Host => k.scene.store.Every P ↔ _) ?_
  exact (ends_onScene_with hend).mono (fun _ _ ⟨_, hk, ht⟩ => hk ▸ ht) fun _ ⟨_, hk, ht⟩ => hk ▸ ht

/-- **During a call and after it something holds of every element just if it holds of all that is written to or
built.** -/
theorem Call.every_apply_iff (hP : Element.Robust P) (hQ : Scene.Judges P Q) (hs : h.scene.Coherent)
    (h₀ : h.scene.store.Every P) (c : Call) :
    ((∀ t ∈ c.along h, t.store.Every P) ∧ (c.apply h).scene.store.Every P) ↔ ∀ x ∈ c.steps h, Q x.1 x.2 := by
  cases c with
  | applyEdits offset len =>
    refine (and_iff_left_of_imp fun hall => ?_).trans (Scene.every_along_iff hP hQ hs h₀ _)
    have hevery : ∀ t ∈ h.scene :: (applyEdits offset len).along h, t.store.Every P :=
      List.forall_mem_cons.mpr ⟨h₀, hall⟩
    have hlast := hevery _ (List.getLast_mem (List.cons_ne_nil h.scene _))
    rw [scene_apply_applyEdits]
    exact hlast
  | saveTemplate number ds =>
    have hjudge := hQ h.scene h₀ (.saveTemplate number ds)
    simp only [Call.along, Call.steps, List.not_mem_nil, List.mem_singleton, false_implies, implies_true, true_and,
      forall_eq, ← hjudge]
    exact Call.every_apply_saveTemplate_iff hP hs h₀ number ds
  | _ => simp [Call.along, Call.steps, Call.every_apply h₀]

/-! ## Runs -/

theorem every_moments_iff_of_staffed (hP : Element.Robust P) (hQ : Scene.Judges P Q) (hp : h.Staffed p) :
    (∀ s ∈ h.moments calls, s.store.Every P) ↔
      h.scene.store.Every P ∧ ∀ x ∈ h.steps calls, Q x.1 x.2 := by
  induction calls generalizing h p with
  | nil => simp [moments, steps, DomHost.along]
  | cons c rest ih =>
    have hsteps : h.steps (c :: rest) = c.steps h ++ (c.apply h).steps rest := rfl
    rw [moments, hsteps, List.forall_mem_cons, List.forall_mem_append, List.forall_mem_append, ih (hp.apply c)]
    refine and_congr_right fun h₀ => ?_
    rw [← Call.every_apply_iff hP hQ hp.coherent h₀ c, and_assoc]

/-- **In every run something holds of every element at every moment just if it holds of all that is written to or
built.** -/
theorem every_moments_iff (hP : Element.Robust P) (hQ : Scene.Judges P Q) (hd : o.document = .ok d)
    (buffer : SharedBuffer) (delegates : Bool) (calls : List Call) :
    (∀ s ∈ (opened d buffer delegates).moments calls, s.store.Every P) ↔
      ∀ x ∈ (opened d buffer delegates).steps calls, Q x.1 x.2 := by
  have hover := Document.Origin.over_document hd
  have hp : (opened d buffer delegates).Staffed fun x => (opened d buffer delegates).Attended x [] :=
    staffed_foldl_apply hover.store hover.listeners buffer delegates []
  rw [every_moments_iff_of_staffed hP hQ hp]
  exact and_iff_right ((Document.Origin.every_iff hd).mpr (o.fits_nodes hP))

end Host

end DomHost
