import DomHost.Proofs.Document.Elements
import DomHost.Proofs.Scene.Nodes
import DomHost.Proofs.Scene.Remnants
import DomHost.Proofs.Store.Toggling

/-!
# The elements of a scene

Instructions create elements, read them from a text, copy them and build them from descriptors. Three of them write
to an element that is there: they set an attribute, toggle one, or declare a style property. So what holds of every
element, and of all that is created or read, holds after an instruction just if it holds of what is written to or
built.

* `Element.Robust`: what holds of elements that are created and read, and withstands all other edits;
* `Descriptor.element?`: the element that is left of a descriptor;
* **`Scene.ends_createDescribed_every`**, `Scene.ends_saveTemplate_every`: templates that are built;
* `Scene.outcome`, `Scene.written`: the nodes after an instruction, and the elements it has written to or built;
* **`Scene.ends_execute_every`**: one instruction.
-/

namespace DomHost

/-- Something that holds of new elements and of those that are read, and goes on to hold as long as no attributes
and declarations are written. -/
structure Element.Robust (P : Element → Prop) : Prop where
  bare : Store.Bare P
  read : ∀ f, ∀ x ∈ (Markup.image f).toList, x.Fits P
  control : ∀ e c, P e → P { e with control := c }
  named : ∀ e, ∀ name ∈ ["class", "value"], ∀ value, P e → P (e.setAttr (.plain name value))
  removeAttr : ∀ e ns localName, P e → P (e.removeAttr ns localName)

namespace Store

variable {P : Element → Prop} {s : Store} {r : NodeRef}

/-- What a node becomes is all that has to be looked at. -/
theorem Every.setData_iff (h : s.Every P) {d data : NodeData} (hr : s.get? r = some d) :
    (s.setData r data).Every P ↔ data.Fits P := by
  refine ⟨fun hs => hs.fits (r := r) ?_, fun hd => h.setData hd r⟩
  rw [get?_setData, if_pos rfl, hr]
  rfl

/-- The element of some node. -/
def Has (s : Store) (e : Element) : Prop := ∃ n ∈ s.forest.toList, n.data = .element e

instance (s : Store) (e : Element) : Decidable (s.Has e) :=
  inferInstanceAs (Decidable (∃ n ∈ s.forest.toList, n.data = .element e))

theorem every_iff_has : s.Every P ↔ ∀ e, s.Has e → P e := by
  constructor
  · rintro h e ⟨n, hn, he⟩
    have hfits := h n hn
    rwa [he] at hfits
  · intro h n hn
    cases hd : n.data with
    | element e => exact h e ⟨n, hn, hd⟩
    | _ => trivial

/-- If a node is no element, nothing changes. -/
def Inert (r : NodeRef) (s t : Store) : Prop := s.element? r = none → t = s

theorem lasting_inert : Lasting (Inert r) where
  refl _ _ := rfl
  trans h h' hs := by
    obtain rfl := h hs
    exact h' hs

theorem inert_updateElement (r : NodeRef) (f : Element → Element) : Keeps (Inert r) (updateElement r f) := by
  intro s
  refine ((ends_requireElement_element? s r).mono (fun _ _ h => h) fun t ht _ => ht.1).bind ?_
  rintro e _ ⟨rfl, he⟩
  exact Ends.modify fun hnone => by cases hnone.symm.trans he

/-- In a well-formed store what holds of every element still does. -/
def SustainsWell (P : Element → Prop) (s t : Store) : Prop :=
  s.WellFormed ∧ s.Every P → t.WellFormed ∧ t.Every P

theorem lasting_sustainsWell : Lasting (SustainsWell P) := ⟨fun _ h => h, fun hst htu h => htu (hst h)⟩

theorem sustainsWell_insertBefore (p c : NodeRef) (before : Option NodeRef) :
    Keeps (SustainsWell P) (insertBefore p c before) := by
  intro s
  refine (ends_insertBefore s p c before).mono ?_ ?_
  · rintro _ _ ⟨hi, before, rfl⟩ ⟨hw, h⟩
    exact ⟨(hw.guards.place before hi (by simp [refsOf]) (by simp [refsOf])).wellFormed,
      (hw.every_place_iff hi before).mpr h⟩
  · rintro _ rfl
    exact id

end Store

/-! ## Descriptors -/

namespace Descriptor

/-- What is left of an element on which attributes are set. The first one that is refused ends it. -/
def attached (e : Element) : List TemplateAttribute → Element
  | [] => e
  | a :: rest =>
    match attach e a with
    | .ok e' => attached e' rest
    | .error _ => e

/-- A tag names an element without attributes and declarations. -/
theorem exists_of_bare {e : Element} {tag : String} {ns : Option String} (h : bare tag ns = .ok e) :
    ∃ localName qualifier ns', e = ⟨localName, qualifier, ns', [], [], {}⟩ := by
  cases ns with
  | none =>
    cases hname : validateName tag <;> rw [bare, hname] at h <;> cases h
    exact ⟨_, _, _, rfl⟩
  | some ns =>
    cases hname : QualifiedName.extract (some ns) tag <;> rw [bare, hname] at h <;> cases h
    unfold Store.namedElement
    split <;> exact ⟨_, _, _, rfl⟩

/-- The element that is left of a descriptor. -/
def element? : Descriptor → Option Element
  | element tag ns attributes _ _ => (bare tag ns).toOption.map (attached · attributes)
  | _ => none

end Descriptor

namespace Scene

variable {κ : Type} {P : Element → Prop} {s : Scene κ} {r : NodeRef} {e : Element} {i : Instruction}

/-- What holds of every element still does. -/
abbrev Sustains (P : Element → Prop) (s t : Scene κ) : Prop := OnNodes (Store.Sustains P) s t

/-- An operation after which everything still holds of every element, as it does before. -/
theorem ends_every_of_sustains {α : Type} {x : SceneM κ α} (hx : Keeps (Sustains P) x) (h : s.store.Every P) :
    Ends x s (fun _ t => t.store.Every P) fun t => t.store.Every P :=
  (hx s).mono (fun _ _ ht => ht h) fun _ ht => ht h

/-! ## Templates -/

/-- Attributes are set on a new element one after the other. -/
theorem ends_forM_writeAttribute (hw : s.store.WellFormed) (e : Element) (attributes : List TemplateAttribute) :
    Ends (attributes.forM fun a => (writeAttribute s.store.cells.draw.1 a.name a.value a.ns : SceneM κ Unit))
      (s.withStore (s.store.create (.element e)).2)
      (fun _ t => t = s.withStore (s.store.create (.element (Descriptor.attached e attributes))).2)
      fun t => t = s.withStore (s.store.create (.element (Descriptor.attached e attributes))).2 := by
  induction attributes generalizing e with
  | nil => exact Ends.pure rfl
  | cons a rest ih =>
    change Ends (writeAttribute _ a.name a.value a.ns >>= fun _ => rest.forM _) _ _ _
    rw [Descriptor.attached]
    cases ha : Descriptor.attach e a with
    | error err => exact Ends.of_eq_error (bind_of_error (writeAttribute_of_refused ha) _) rfl
    | ok e' =>
      refine (Ends.of_eq (Q := fun _ t => t = _) (writeAttribute_eq hw ha) rfl).bind ?_
      rintro _ _ rfl
      exact ih e'

/-- **The node of a descriptor is created with the element that is left of it.** -/
theorem ends_createDescribed_every (hw : s.store.WellFormed) (h : s.store.Every P) {d : Descriptor}
    (hd : ∀ e ∈ d.element?, P e) :
    Ends (createDescribed d) s (fun _ t => t.store.WellFormed ∧ t.store.Every P)
      fun t => t.store.WellFormed ∧ t.store.Every P := by
  have hcreate : ∀ data : NodeData, data.isDocument = false → data.Fits P →
      (s.store.create data).2.WellFormed ∧ (s.store.create data).2.Every P := fun data hdoc hdata =>
    ⟨hw.plant (Store.plantable_leaf hdoc), Store.every_create_iff.mpr ⟨hdata, h⟩⟩
  cases d with
  | text t => exact Ends.of_eq (onStore_of_ok (x := Store.createText t) rfl) (hcreate (.text t) rfl trivial)
  | dynamicText => exact Ends.of_eq (onStore_of_ok (x := Store.createText "") rfl) (hcreate (.text "") rfl trivial)
  | placeholder =>
    exact Ends.of_eq (onStore_of_ok (x := Store.createComment placeholderText) rfl)
      (hcreate (.comment placeholderText) rfl trivial)
  | element tag ns attributes count slot =>
    unfold createDescribed
    cases hbare : Descriptor.bare tag ns with
    | error err => exact Ends.of_eq_error (bind_of_error (newElement_of_refused hbare) _) ⟨hw, h⟩
    | ok e =>
      have hleft : P (Descriptor.attached e attributes) := hd _ (by rw [Descriptor.element?, hbare]; rfl)
      refine (Ends.of_eq (Q := fun r t => r = _ ∧ t = _) (newElement_eq hbare) ⟨rfl, rfl⟩).bind ?_
      rintro _ _ ⟨rfl, rfl⟩
      refine Ends.bind (R := fun _ t => t.store.WellFormed ∧ t.store.Every P) ?_ fun _ _ ht => Ends.pure ht
      refine (ends_forM_writeAttribute hw e attributes).mono ?_ ?_
      · rintro _ _ rfl
        exact hcreate _ rfl hleft
      · rintro _ rfl
        exact hcreate _ rfl hleft

theorem ends_assemble_every (hw : s.store.WellFormed) (h : s.store.Every P) (total : Nat) {ds : List Descriptor}
    (hds : ∀ d ∈ ds, ∀ e ∈ d.element?, P e) (a : Assembly) :
    Ends (assemble total ds a) s (fun _ t => t.store.Every P) fun t => t.store.Every P := by
  induction ds generalizing a s with
  | nil =>
    unfold assemble
    exact Ends.ite (fun _ => Ends.pure h) fun _ => Ends.throw h
  | cons d ds ih =>
    obtain ⟨hd, hds⟩ := List.forall_mem_cons.mp hds
    unfold assemble
    refine ((ends_createDescribed_every hw h hd).mono (fun _ _ ht => ht) fun _ ht => ht.2).bind fun r t ht => ?_
    refine Ends.ite (fun _ => ih ht.1 ht.2 hds _) fun _ => ?_
    have hcomplete := onNodes_complete (κ := κ) Store.lasting_sustainsWell
      (fun p c => Store.sustainsWell_insertBefore (P := P) p c none) r (a.mark d).waiting
    exact ((hcomplete t).mono (fun _ _ hu => hu ht) fun _ hu => (hu ht).2).bind fun w u hu => ih hu.1 hu.2 hds _

theorem ends_saveTemplate_every (hw : s.store.WellFormed) (h : s.store.Every P) (number : UInt32)
    {ds : List Descriptor} (hds : ∀ d ∈ ds, ∀ e ∈ d.element?, P e) :
    Ends (saveTemplate number ds) s (fun _ t => t.store.Every P) fun t => t.store.Every P := by
  unfold saveTemplate
  refine Ends.get_bind (Ends.ite (fun _ => Ends.pure h) fun _ => ?_)
  refine (ends_assemble_every hw h ds.length hds {}).bind fun a t ht => ?_
  split
  · refine (Ends.modify (Q := fun _ (t : Scene κ) => t.store.Every P) ht).bind fun _ u hu => ?_
    split
    · exact ends_every_of_sustains (onNodes_onDocument (Document.sustains_freeSubtree _)).discard hu
    · exact Ends.pure hu
  · exact Ends.throw ht

/-! ## Edits that write no attributes and declarations -/

section Robust

variable (hP : Element.Robust P)

include hP

theorem sustains_newElement (tag : String) (ns : Option String) : Keeps (Sustains (κ := κ) P) (newElement tag ns) := by
  intro s
  cases hbare : Descriptor.bare tag ns with
  | error err => exact Ends.of_eq_error (newElement_of_refused hbare) id
  | ok e =>
    refine Ends.of_eq (newElement_eq hbare) fun hs => Store.every_create_iff.mpr ⟨?_, hs⟩
    obtain ⟨localName, qualifier, ns', rfl⟩ := Descriptor.exists_of_bare hbare
    exact hP.bare localName qualifier ns'

theorem sustains_addFragment (r : NodeRef) (html : String) :
    Keeps (fun d d' : Document => d.store.Sustains P d'.store) (Document.addFragment r html) := by
  intro d
  have hread := Document.fits_written hP.read d r html
  exact (Document.ends_addFragment_every d r html).mono (fun _ _ hd h => hd.mpr ⟨hread, h⟩)
    fun _ hd h => hd.mpr ⟨hread, h⟩

theorem sustains_assign (r : NodeRef) (property : Property) (value : String) :
    Keeps (Sustains (κ := κ) P) (assign r property value) := by
  have hS := Store.lasting_sustains (P := P)
  have hL := lasting_onNodes (κ := κ) hS
  have hset : ∀ p, Keeps (Sustains (κ := κ) P) (onDocument (Document.setProperty r p value)) := fun p =>
    onNodes_onDocument (Document.sustains_setProperty hP.control hP.named r p value)
  have hclear := onNodes_releaseChildren (κ := κ) hS (Store.sustains_freeSubtree (P := P)) r
  cases property with
  | innerHtml =>
    refine .bind hL (onNodes_onDocument (sustains_addFragment hP r value)) fun parsed => .bind hL hclear fun _ => ?_
    exact onNodes_onDocument (Document.sustains_replaceChildren r parsed)
  | textContent => exact .bind hL hclear fun _ => hset .textContent
  | className => exact hset .className
  | value => exact hset .value
  | checked => exact hset .checked

end Robust

/-! ## Instructions -/

/-- The element that an id is tied to. -/
def boundElement? (s : Scene κ) (id : NodeId) : Option Element := (s.bindings.get? id).bind s.store.element?

theorem every_boundElement? (h : s.store.Every P) {id : NodeId} (he : s.boundElement? id = some e) : P e := by
  obtain ⟨r, -, hr⟩ := Option.bind_eq_some_iff.mp he
  exact h.element hr

/-- The nodes after an instruction, whether it succeeds or not. -/
def outcome (s : Scene κ) (i : Instruction) : Store :=
  match execute i s with
  | .ok _ t => t.store
  | .error _ t => t.store

theorem ends_execute_outcome (s : Scene κ) (i : Instruction) :
    Ends (execute i) s (fun _ t => t.store = s.outcome i) fun t => t.store = s.outcome i := by
  unfold Ends outcome
  cases execute i s <;> rfl

/-- The elements that an instruction has written to, or built of descriptors, as they are after it. -/
def written (s : Scene κ) : Instruction → List Element
  | .setAttribute id name value ns =>
    ((s.boundElement? id).bind fun e => (Descriptor.attach e ⟨name, value, ns⟩).toOption).toList
  | .toggleAttribute id name force =>
    ((s.boundElement? id).bind fun e => (validateName name).toOption.map fun _ =>
      (e.toggled (Store.attributeName e name) (e.hasAttr name.toLower) force).2).toList
  | .setStyle id property value => ((s.boundElement? id).bind fun e => some (e.declare property value)).toList
  | .saveTemplate number ds => (ds.filterMap (·.element?)).filter (s.outcome (.saveTemplate number ds)).Has
  | _ => []

/-- Nothing is written where there is no element, and else what is written has to be looked at. -/
theorem ends_withElement_every (h : s.store.Every P) {id : NodeId} {f : NodeRef → SceneM κ Unit}
    {g : Element → Option Element} (hinert : ∀ r, Keeps (OnNodes (Store.Inert r)) (f r))
    (hf : ∀ r e, s.store.get? r = some (.element e) →
      Ends (f r) s (fun _ t => ∃ e', g e = some e' ∧ t.store = s.store.setData r (.element e'))
        fun t => g e = none ∧ t.store = s.store) :
    Ends (node id >>= f) s (fun _ t => t.store.Every P ↔ ∀ e ∈ ((s.boundElement? id).bind g).toList, P e)
      fun t => t.store.Every P ↔ ∀ e ∈ ((s.boundElement? id).bind g).toList, P e := by
  have hskip : (s.boundElement? id).bind g = none → ∀ t : Scene κ, t.store = s.store →
      (t.store.Every P ↔ ∀ e ∈ ((s.boundElement? id).bind g).toList, P e) := fun hnone t ht => by
    rw [hnone, ht]
    exact iff_of_true h (by simp)
  refine ((ends_node s id).mono (fun _ _ ht => ht) fun t ht => ?_).bind fun r t ht => ?_
  · exact hskip (by rw [boundElement?, ht.2]; rfl) t (congrArg store ht.1)
  obtain ⟨rfl, hid⟩ := ht
  have hbound : t.boundElement? id = t.store.element? r := by rw [boundElement?, hid]; rfl
  cases he : t.store.element? r with
  | none =>
    have hnone : (t.boundElement? id).bind g = none := by rw [hbound, he]; rfl
    exact (hinert r t).mono (fun _ u hu => hskip hnone u (hu he)) fun u hu => hskip hnone u (hu he)
  | some e =>
    have hr := Store.element?_eq_some_iff.mp he
    have hsome : (t.boundElement? id).bind g = g e := by rw [hbound, he]; rfl
    refine (hf r e hr).mono (fun _ u hu => ?_) fun u hu => hskip (hsome.trans hu.1) u hu.2
    obtain ⟨e', he', hu⟩ := hu
    rw [hsome, he', hu, h.setData_iff hr]
    simp [NodeData.Fits]

/-- All elements after a definition were there before, or are built of its descriptors. -/
theorem ends_saveTemplate_written (hw : s.store.WellFormed) (h : s.store.Every P) (number : UInt32)
    (ds : List Descriptor) :
    Ends (execute (.saveTemplate number ds)) s
      (fun _ t => t.store.Every P ↔ ∀ e ∈ s.written (.saveTemplate number ds), P e)
      fun t => t.store.Every P ↔ ∀ e ∈ s.written (.saveTemplate number ds), P e := by
  have hevery : s.store.Every fun e => e ∈ ds.filterMap (·.element?) ∨ s.store.Has e :=
    Store.every_iff_has.mpr fun e he => Or.inr he
  have hend := ends_saveTemplate_every hw hevery number fun d hd e he =>
    Or.inl (List.mem_filterMap.mpr ⟨d, hd, he⟩)
  have hiff : ∀ t : Scene κ, t.store.Every (fun e => e ∈ ds.filterMap (·.element?) ∨ s.store.Has e) →
      t.store = s.outcome (.saveTemplate number ds) →
      (t.store.Every P ↔ ∀ e ∈ s.written (.saveTemplate number ds), P e) := fun t ht hout => by
    simp only [written, List.mem_filter, decide_eq_true_eq, ← hout, and_imp, Store.every_iff_has] at *
    refine ⟨fun hall e _ he => hall e he, fun hall e he => ?_⟩
    exact (ht e he).elim (fun hd => hall e hd he) (h e)
  have hout := ends_execute_outcome s (.saveTemplate number ds)
  exact (Ends.and hend hout).mono (fun _ t ht => hiff t ht.1 ht.2) fun t ht => hiff t ht.1 ht.2

/-- **After an instruction everything holds of every element just if it holds of what the instruction has written to
or built.** -/
theorem ends_execute_every (hP : Element.Robust P) (hw : s.store.WellFormed) (h : s.store.Every P) (i : Instruction) :
    Ends (execute i) s (fun _ t => t.store.Every P ↔ ∀ e ∈ s.written i, P e)
      fun t => t.store.Every P ↔ ∀ e ∈ s.written i, P e := by
  have hS := Store.lasting_sustains (P := P)
  have hL := lasting_onNodes (κ := κ) hS
  have hnode := onNodes_node (κ := κ) hS
  have hnodes := onNodes_nodes (κ := κ) hS
  have hfree := Store.sustains_freeSubtree (P := P)
  have hbind := onNodes_bind (κ := κ) hS hfree
  have hinert := fun r f (_ : ∀ e : Element, e.Reattributed (f e)) => Store.inert_updateElement r f
  -- an instruction that writes nothing
  have hother : s.written i = [] → Keeps (Sustains (κ := κ) P) (execute i) →
      Ends (execute i) s (fun _ t => t.store.Every P ↔ ∀ e ∈ s.written i, P e)
        fun t => t.store.Every P ↔ ∀ e ∈ s.written i, P e := fun hnone hx => by
    rw [hnone]
    exact (ends_every_of_sustains hx h).mono (fun _ _ ht => iff_of_true ht (by simp)) fun _ ht =>
      iff_of_true ht (by simp)
  cases i with
  | setAttribute id name value ns =>
    refine ends_withElement_every h (fun r => ?_) fun r e hr => ?_
    · cases ns with
      | some ns =>
        exact onNodes_onStore (Store.keeps_setAttributeNs Store.lasting_inert (hinert r) (some ns) name value)
      | none => exact onNodes_onStore (Store.keeps_setAttribute Store.lasting_inert (hinert r) name value)
    · cases ha : Descriptor.attach e ⟨name, value, ns⟩ with
      | error err => exact Ends.of_eq_error (writeAttribute_of_refused ha) ⟨rfl, rfl⟩
      | ok e' => exact Ends.of_eq (writeAttribute_of_get? hr ha) ⟨e', rfl, rfl⟩
  | toggleAttribute id name force =>
    refine ends_withElement_every h (fun r => ?_) fun r e hr => ?_
    · exact (onNodes_onStore (Store.keeps_toggleAttribute Store.lasting_inert (hinert r) name force)).discard
    · cases hname : validateName name with
      | error err =>
        refine Ends.of_eq_error (discard_of_error (onStore_of_error (e := err) (u := s.store) ?_)) ⟨rfl, rfl⟩
        unfold Store.toggleAttribute
        rw [hname]
        rfl
      | ok u =>
        exact Ends.of_eq (discard_of_ok (onStore_of_ok (hw.toggleAttribute_of_get? hr hname force))) ⟨_, rfl, rfl⟩
  | setStyle id property value =>
    refine ends_withElement_every h (fun r => onNodes_onStore (Store.inert_updateElement r _)) fun r e hr => ?_
    exact Ends.of_eq (onStore_of_ok (Store.updateElement_of_get? hr _)) ⟨_, rfl, rfl⟩
  | saveTemplate number ds => exact ends_saveTemplate_written hw h number ds
  | createElement id tag ns => exact hother rfl (.bind hL (sustains_newElement hP tag ns) (hbind id))
  | createText id text =>
    exact hother rfl (.bind hL (onNodes_onStore (Store.sustains_create (d := .text text) trivial)) (hbind id))
  | createPlaceholder id =>
    exact hother rfl
      (.bind hL (onNodes_onStore (Store.sustains_create (d := .comment placeholderText) trivial)) (hbind id))
  | loadTemplate template id slots =>
    exact hother rfl (.bind hL (onNodes_instantiate hS Store.sustains_cloneSubtree template slots) (hbind id))
  | bindElementById id domId =>
    refine hother rfl (Keeps.get_bind fun s => ?_)
    split
    · exact hbind id _
    · exact .throw hL _
  | removeAttribute id name ns =>
    refine hother rfl (.bind hL (hnode id) fun r => onNodes_onStore (Store.sustains_updateElement (fun e he => ?_) r))
    split <;> exact hP.removeAttr _ _ _ he
  | setProperty id property value =>
    exact hother rfl (.bind hL (hnode id) fun r => sustains_assign hP r property value)
  | appendChildren parent children =>
    refine hother rfl (.bind hL (hnode parent) fun r => .bind hL (hnodes children) fun rs => ?_)
    exact .forM hL (fun c => onNodes_onStore (Store.sustains_insertBefore r c none)) rs
  | insertBefore reference ids =>
    exact hother rfl (.bind hL (hnode reference) fun r => .bind hL (hnodes ids) fun rs =>
      onNodes_onStore (Store.sustains_insertAllBefore r rs))
  | insertAfter reference ids =>
    exact hother rfl (.bind hL (hnode reference) fun r => .bind hL (hnodes ids) fun rs =>
      onNodes_onStore (Store.sustains_insertAfter r rs))
  | remove id => exact hother rfl (.bind hL (hnode id) (onNodes_releaseSubtree hS hfree))
  | replaceWith id ids =>
    exact hother rfl (.bind hL (hnode id) fun r => .bind hL (hnodes ids) fun rs =>
      onNodes_replace hS hfree (Store.sustains_replaceWith r rs))
  | freeId id =>
    refine hother rfl (Keeps.get_bind fun s => ?_)
    split
    · exact .bind hL (onNodes_modify hS fun _ => rfl) fun _ => onNodes_reclaim hS hfree _
    · exact .pure hL _
  | addListener id name c capture => exact hother rfl (.bind hL (hnode id) fun r => onNodes_listen hS r name c capture)
  | removeListener id name c capture =>
    exact hother rfl (.bind hL (hnode id) fun r => onNodes_unlisten hS r name c capture)

end Scene

end DomHost
