import DomHost.Proofs.Outcome
import DomHost.Proofs.Store.Edits

/-!
# Operations on well-formed stores

Each operation of a store ends in a well-formed store, whether it succeeds or fails, and leaves the
guarded trees alone as long as the nodes it is called with are not in them.

* `Store.ends_insertBefore`, `Store.ends_freeSubtree`: what an operation does when it is not refused;
* **`Store.Guards.insertBefore`**, `Store.Guards.detach`, `Store.Guards.removeChild`: moving a node;
* **`Store.Guards.insertAt`**, `Store.Guards.replaceWith`: moving several nodes, up to the first refusal;
* `Store.Guards.cloneSubtree`, `Store.Guards.plantEach`: new trees;
* `Store.Guards.updateElement`, `Store.Guards.setTextContent`: contents.
-/

namespace DomHost.Store

variable {s : Store} {r parent child : NodeRef} {ts : List (Node × Forest Node)}
  {held : List NodeRef}

/-! ## Reading -/

theorem ends_require_live (s : Store) (r : NodeRef) :
    Ends (require r) s (fun d s' => s' = s ∧ s.get? r = some d) fun s' => s' = s ∧ ¬ s.Live r := by
  unfold require
  refine Ends.get_bind ?_
  split
  · exact ⟨rfl, ‹_›⟩
  · rename_i hn
    refine ⟨rfl, fun hl => ?_⟩
    rw [← get?_isSome_iff, hn] at hl
    exact absurd hl (by simp)

theorem ends_require (s : Store) (r : NodeRef) :
    Ends (require r) s (fun d s' => s' = s ∧ s.get? r = some d) (· = s) :=
  (ends_require_live s r).mono (fun _ _ he => he) fun _ he => he.1

theorem require_of_get? {d : NodeData} (h : s.get? r = some d) : require r s = .ok d s := by
  change (require r).run s = _
  simp only [require, EStateM.run_bind, EStateM.run_get, h]
  rfl

theorem require_of_not_live (h : ¬ s.Live r) : require r s = .error (.notFound r) s := by
  have hn : s.get? r = none := by
    rwa [← Option.isNone_iff_eq_none, ← Option.isSome_eq_false_iff, ← Bool.not_eq_true, get?_isSome_iff]
  change (require r).run s = _
  simp only [require, EStateM.run_bind, EStateM.run_get, hn]
  rfl

theorem ends_discard_require (s : Store) (r : NodeRef) :
    Ends (discard (require r)) s (fun _ s' => s' = s ∧ s.Live r) (· = s) :=
  (ends_require s r).discard.mono
    (fun _ _ ⟨_, hs, hd⟩ => ⟨hs, get?_isSome_iff.mp (by rw [hd]; rfl)⟩) fun _ he => he

theorem discard_require_of_live (h : s.Live r) : discard (require r) s = .ok () s := by
  obtain ⟨d, hd⟩ := Option.isSome_iff_exists.mp (get?_isSome_iff.mpr h)
  exact discard_of_ok (require_of_get? hd)

theorem ends_requireElement (s : Store) (r : NodeRef) :
    Ends (requireElement r) s (fun e s' => s' = s ∧ s.get? r = some (.element e)) (· = s) := by
  unfold requireElement
  refine (ends_require s r).bind ?_
  rintro d s' ⟨rfl, hd⟩
  split
  · exact ⟨rfl, hd⟩
  · rfl

theorem ends_checkInsertion (s : Store) (parent child : NodeRef) :
    Ends (checkInsertion parent child) s (fun _ s' => s' = s ∧ s.Insertable parent child)
      (· = s) := by
  unfold checkInsertion
  refine (ends_require s parent).bind ?_
  rintro above s' ⟨rfl, hp⟩
  refine (ends_require s' child).bind ?_
  rintro below s ⟨rfl, hc⟩
  refine Ends.ite (fun hcont => ?_) fun _ => Ends.throw_bind rfl
  refine Ends.ite (fun _ => Ends.throw_bind rfl) fun hdoc => ?_
  refine Ends.get_bind (Ends.ite (fun _ => Ends.throw_bind rfl) fun hanc => ?_)
  refine Ends.ite (fun _ => Ends.throw rfl) fun _ => ?_
  refine Ends.pure ⟨rfl, ⟨above, hp, hcont⟩, ⟨below, hc, by simpa using hdoc⟩, ?_⟩
  simpa [isInclusiveAncestor] using hanc

theorem ends_checkInsertions (s : Store) (parent : NodeRef) (nodes : List NodeRef) :
    Ends (nodes.forM (checkInsertion parent)) s (fun _ s' => s' = s) (· = s) := by
  refine Ends.forM (I := fun s' => s' = s) (fun r _ s' hs => ?_) rfl
  exact (ends_checkInsertion s' parent r).mono (fun _ _ he => he.1.trans hs) fun _ he => he.trans hs

/-! ## One node -/

/-- **A node is put under a parent that may have it, or nothing changes.** -/
theorem ends_insertBefore (s : Store) (parent child : NodeRef) (reference : Option NodeRef) :
    Ends (insertBefore parent child reference) s
      (fun _ s' => s.Insertable parent child ∧ ∃ before, s' = s.place parent child before)
      (· = s) := by
  unfold insertBefore
  refine (ends_checkInsertion s parent child).bind ?_
  rintro _ s' ⟨rfl, hi⟩
  split
  · exact Ends.modify ⟨hi, _, rfl⟩
  · rename_i before _
    refine (ends_discard_require s' before).bind ?_
    rintro _ s ⟨rfl, -⟩
    refine Ends.get_bind (Ends.ite (fun _ => ?_) fun _ => Ends.throw_bind rfl)
    exact Ends.modify ⟨hi, _, rfl⟩

/-- Trees that may all be planted. -/
def Plantables : Forest NodeData → Prop
  | .nil => True
  | .node d c n => Plantable d c ∧ Plantables n

namespace Guards

theorem insertBefore (h : s.Guards ts held) (hp : parent ∉ refsOf ts) (hc : child ∉ refsOf ts)
    (reference : Option NodeRef) :
    Ends (insertBefore parent child reference) s (fun _ => Guards ts held) (Guards ts held) := by
  refine (ends_insertBefore s parent child reference).mono ?_ ?_
  · rintro _ _ ⟨hi, before, rfl⟩
    exact h.place before hi hp hc
  · rintro _ rfl
    exact h

theorem detach (h : s.Guards ts held) (hr : r ∉ refsOf ts) :
    Ends (detach r) s (fun _ => Guards ts held) (Guards ts held) := by
  unfold Store.detach
  refine ((ends_discard_require s r).mono (fun _ _ he => he.1) fun _ he => he ▸ h).bind ?_
  rintro _ _ rfl
  exact Ends.modify (h.takeOut hr)

theorem removeChild (h : s.Guards ts held) (hr : child ∉ refsOf ts) :
    Ends (removeChild parent child) s (fun _ => Guards ts held) (Guards ts held) := by
  unfold Store.removeChild
  refine ((ends_discard_require s child).mono (fun _ _ he => he.1) fun _ he => he ▸ h).bind ?_
  rintro _ _ rfl
  refine Ends.get_bind (Ends.ite (fun _ => ?_) fun _ => Ends.throw_bind h)
  exact Ends.modify (h.takeOut hr)

/-! ## Several nodes -/

theorem insertAt (h : s.Guards ts held) (hp : parent ∉ refsOf ts) {nodes : List NodeRef}
    (hn : ∀ r ∈ nodes, r ∉ refsOf ts) (candidates : List NodeRef) :
    Ends (insertAt parent nodes candidates) s (fun _ => Guards ts held) (Guards ts held) :=
  Ends.forM (fun r hr _ hs => hs.insertBefore hp (hn r hr) _) h

theorem insertAfter (h : s.Guards ts held) {reference : NodeRef} (hr : reference ∉ refsOf ts)
    {nodes : List NodeRef} (hn : ∀ r ∈ nodes, r ∉ refsOf ts) :
    Ends (insertAfter reference nodes) s (fun _ => Guards ts held) (Guards ts held) := by
  unfold Store.insertAfter
  refine Ends.get_bind ?_
  split
  · exact (ends_discard_require s reference).mono (fun _ _ he => he.1 ▸ h) fun _ he => he ▸ h
  · exact Ends.get_bind (h.insertAt (h.parent_notMem hr ‹_›) hn _)

theorem insertAllBefore (h : s.Guards ts held) {reference : NodeRef} (hr : reference ∉ refsOf ts)
    {nodes : List NodeRef} (hn : ∀ r ∈ nodes, r ∉ refsOf ts) :
    Ends (insertAllBefore reference nodes) s (fun _ => Guards ts held) (Guards ts held) := by
  unfold Store.insertAllBefore
  refine Ends.get_bind ?_
  split
  · exact (ends_discard_require s reference).mono (fun _ _ he => he.1 ▸ h) fun _ he => he ▸ h
  · exact Ends.get_bind (h.insertAt (h.parent_notMem hr ‹_›) hn _)

theorem replaceWith (h : s.Guards ts held) {old : NodeRef} (hr : old ∉ refsOf ts)
    {nodes : List NodeRef} (hn : ∀ r ∈ nodes, r ∉ refsOf ts) :
    Ends (replaceWith old nodes) s (fun _ => Guards ts held) (Guards ts held) := by
  unfold Store.replaceWith
  refine Ends.get_bind ?_
  split
  · exact (ends_discard_require s old).mono (fun _ _ he => he.1 ▸ h) fun _ he => he ▸ h
  · rename_i parent hparent
    have hp := h.parent_notMem hr hparent
    refine ((ends_checkInsertions s parent nodes).mono (fun _ _ he => he) fun _ he => he ▸ h).bind ?_
    rintro _ _ rfl
    refine Ends.get_bind (Ends.ite (fun _ => h.insertAt hp hn _) fun _ => ?_)
    exact (h.detach hr).bind fun _ _ h => h.insertAt hp hn _

theorem clearChildren (h : s.Guards ts held) (hr : r ∉ refsOf ts) :
    Ends (clearChildren r) s (fun _ => Guards ts held) (Guards ts held) :=
  Ends.modify (h.scatter hr)

/-! ## New trees -/

/-- **A new node is none of the guarded ones.** -/
theorem create (h : s.Guards ts held) {data : NodeData} (hd : data.isDocument = false) :
    Ends (modifyGet (·.create data) : StoreM NodeRef) s
      (fun r s => s.Guards ts (r :: held) ∧ r ∉ refsOf ts) (Guards ts held) := by
  refine Ends.modifyGet ?_
  rw [create_eq_plant]
  refine ⟨h.plant (plantable_leaf hd), fun hr => ?_⟩
  exact h.wellFormed.plant_notLive data .nil (h.live_of_mem_refsOf hr)

theorem createElementNs (h : s.Guards ts held) (ns : Option String) (name : String) :
    Ends (createElementNs ns name) s (fun r s => s.Guards ts (r :: held) ∧ r ∉ refsOf ts)
      (Guards ts held) := by
  unfold Store.createElementNs
  exact (Ends.liftResult (Q := fun _ => Guards ts held) (fun _ _ => h) h).bind fun _ _ h =>
    h.create rfl

theorem cloneSubtree (h : s.Guards ts held) :
    Ends (cloneSubtree r) s (fun c s => s.Guards ts (c :: held) ∧ c ∉ refsOf ts)
      (Guards ts held) := by
  unfold Store.cloneSubtree
  refine Ends.get_bind ?_
  split
  · exact Ends.throw h
  · rename_i n c ht
    refine Ends.ite (fun _ => Ends.throw_bind h) fun hd => Ends.modifyGet ?_
    rw [copy_eq_plant]
    have hp := h.wellFormed.plantable_copy ht (by simpa using hd)
    exact ⟨h.plant hp, fun hr => h.wellFormed.plant_notLive _ _ (h.live_of_mem_refsOf hr)⟩

/-- **Trees are planted one by one, and used as they are planted.** -/
theorem plantEach {use : NodeRef → StoreM Unit}
    (hu : ∀ r s, r ∉ refsOf ts → s.Guards ts held →
      Ends (use r) s (fun _ => Guards ts held) (Guards ts held))
    {f : Forest NodeData} (hf : Plantables f) (h : s.Guards ts held) :
    Ends (plantEach use f) s (fun rs s => s.Guards ts held ∧ ∀ r ∈ rs, r ∉ refsOf ts)
      (Guards ts held) := by
  induction f generalizing s with
  | nil => exact Ends.pure ⟨h, by simp⟩
  | node d c n _ ihn =>
    have hnew : (s.plant d c).1 ∉ refsOf ts := fun hr =>
      h.wellFormed.plant_notLive d c (h.live_of_mem_refsOf hr)
    have hplant := (h.plant hf.1).weaken (List.Subset.refl ts) (List.subset_cons_self _ held)
    unfold Store.plantEach
    refine (Ends.modifyGet (f := fun s : Store => s.plant d c)
      (Q := fun r s => Guards ts held s ∧ r ∉ refsOf ts) ⟨hplant, hnew⟩).bind fun r s hr => ?_
    refine (hu r s hr.2 hr.1).bind fun _ s h => ?_
    refine (ihn hf.2 h).bind fun rs s hrs => ?_
    exact Ends.pure ⟨hrs.1, List.forall_mem_cons.mpr ⟨hr.2, hrs.2⟩⟩

end Guards

/-! ## Removal -/

theorem ends_freeSubtree (s : Store) (r : NodeRef) :
    Ends (freeSubtree r) s
      (fun freed s' => freed = s.descendants r ∧ s' = s.without r ∧
        ∃ d, s.get? r = some d ∧ d.isDocument = false) (· = s) := by
  unfold freeSubtree
  refine (ends_require s r).bind ?_
  rintro d _ ⟨rfl, hd⟩
  refine Ends.ite (fun _ => Ends.throw_bind rfl) fun hdoc => Ends.modifyGet ?_
  exact ⟨rfl, rfl, d, hd, by simpa using hdoc⟩

theorem Guards.freeSubtree (h : s.Guards ts held) (hr : r ∉ refsOf ts)
    (hl : ∀ x ∈ held, x ∉ s.descendants r) :
    Ends (freeSubtree r) s (fun freed s' => s'.Guards ts held ∧ freed = s.descendants r)
      fun s' => s' = s := by
  refine (ends_freeSubtree s r).mono ?_ fun _ he => he
  rintro freed _ ⟨rfl, rfl, d, hd, hdoc⟩
  exact ⟨h.without (h.wellFormed.ne_root hd hdoc) hr hl, rfl⟩

/-! ## Contents -/

/-- What stays true when an element is changed in place. -/
def KeptByChange (r : NodeRef) (I : Store → Prop) : Prop :=
  ∀ s e e', I s → s.get? r = some (.element e) → I (s.setData r (.element e'))

section Change

variable {I : Store → Prop}

theorem ends_updateElement (hI : KeptByChange r I) (h : I s) (f : Element → Element) :
    Ends (updateElement r f) s (fun _ => I) I := by
  unfold updateElement
  refine ((ends_requireElement s r).mono (fun _ _ he => he) fun _ he => he ▸ h).bind ?_
  rintro e _ ⟨rfl, hd⟩
  exact Ends.modify (hI _ e _ h hd)

theorem ends_setAttribute (hI : KeptByChange r I) (h : I s) (name value : String) :
    Ends (setAttribute r name value) s (fun _ => I) I := by
  unfold setAttribute
  exact (Ends.liftResult (Q := fun _ => I) (fun _ _ => h) h).bind fun _ _ h =>
    ends_updateElement hI h _

theorem ends_setAttributeNs (hI : KeptByChange r I) (h : I s) (ns : Option String)
    (name value : String) : Ends (setAttributeNs r ns name value) s (fun _ => I) I := by
  unfold setAttributeNs
  exact (Ends.liftResult (Q := fun _ => I) (fun _ _ => h) h).bind fun _ _ h =>
    ends_updateElement hI h _

end Change

theorem keptByChange_guards (hr : r ∉ refsOf ts) : KeptByChange r (Guards ts held) :=
  fun _ _ _ h hd => h.setData hd rfl rfl hr

namespace Guards

theorem requireElement (h : s.Guards ts held) (r : NodeRef) :
    Ends (requireElement r) s (fun _ => Guards ts held) (Guards ts held) :=
  (ends_requireElement s r).mono (fun _ _ he => he.1 ▸ h) fun _ he => he ▸ h

theorem updateElement (h : s.Guards ts held) (hr : r ∉ refsOf ts) (f : Element → Element) :
    Ends (updateElement r f) s (fun _ => Guards ts held) (Guards ts held) :=
  ends_updateElement (keptByChange_guards hr) h f

theorem setAttribute (h : s.Guards ts held) (hr : r ∉ refsOf ts) (name value : String) :
    Ends (setAttribute r name value) s (fun _ => Guards ts held) (Guards ts held) :=
  ends_setAttribute (keptByChange_guards hr) h name value

theorem setAttributeNs (h : s.Guards ts held) (hr : r ∉ refsOf ts) (ns : Option String)
    (name value : String) :
    Ends (setAttributeNs r ns name value) s (fun _ => Guards ts held) (Guards ts held) :=
  ends_setAttributeNs (keptByChange_guards hr) h ns name value

theorem removeAttribute (h : s.Guards ts held) (hr : r ∉ refsOf ts) (ns : Option String)
    (name : String) :
    Ends (removeAttribute r ns name) s (fun _ => Guards ts held) (Guards ts held) :=
  h.updateElement hr _

theorem toggleAttribute (h : s.Guards ts held) (hr : r ∉ refsOf ts) (name : String)
    (force : Option Bool) :
    Ends (toggleAttribute r name force) s (fun _ => Guards ts held) (Guards ts held) := by
  unfold Store.toggleAttribute
  refine (Ends.liftResult (Q := fun _ => Guards ts held) (fun _ _ => h) h).bind fun _ s h => ?_
  refine ((ends_requireElement s r).mono (fun _ _ he => he.1) fun _ he => he ▸ h).bind ?_
  rintro e _ rfl
  refine Ends.ite (fun _ => ?_) fun _ => Ends.ite (fun _ => ?_) fun _ => Ends.pure h
  · exact (h.setAttribute hr name "").bind fun _ _ h => Ends.pure h
  · exact (h.removeAttribute hr none name).bind fun _ _ h => Ends.pure h

theorem placeText (h : s.Guards ts held) (hr : r ∉ refsOf ts) {d : NodeData}
    (hd : s.get? r = some d) (hc : d.isContainer = true) (text : String) :
    Ends (do let child ← createText text; modify (·.place r child none)) s
      (fun _ => Guards ts held) (Guards ts held) := by
  have hp : Plantable (.text text) .nil := plantable_leaf rfl
  have hnew := (h.plant hp).weaken (List.Subset.refl ts) (List.subset_cons_self _ held)
  have hn : (s.create (.text text)).1 ∉ refsOf ts := fun hr =>
    h.wellFormed.plant_notLive _ .nil (h.live_of_mem_refsOf hr)
  exact Ends.modify (hnew.place none (h.wellFormed.insertable_create hd hc rfl) hr hn)

theorem setTextContent (h : s.Guards ts held) (hr : r ∉ refsOf ts) (text : String) :
    Ends (setTextContent r text) s (fun _ => Guards ts held) (Guards ts held) := by
  unfold Store.setTextContent
  refine ((ends_require s r).mono (fun _ _ he => he) fun _ he => he ▸ h).bind ?_
  rintro d s ⟨rfl, hd⟩
  cases d with
  | text t => exact Ends.modify (h.setData hd rfl rfl hr)
  | comment t => exact Ends.modify (h.setData hd rfl rfl hr)
  | document => exact Ends.pure h
  | element e =>
    have hs := h.scatter hr
    have hd' : (s.scatter r).get? r = some (.element e) := by
      rw [hs.wellFormed.get?_eq_some_iff, (h.wellFormed.distinct.perm_scatter r).mem_iff]
      exact h.wellFormed.get?_eq_some_iff.mp hd
    refine (Ends.modify (f := fun s : Store => s.scatter r) (Q := fun _ s => s = _) rfl).bind ?_
    rintro _ _ rfl
    exact Ends.ite (fun _ => Ends.pure hs) fun _ => hs.placeText hr hd' rfl text

end Guards

end DomHost.Store
