import DomHost.Proofs.Scene.Described
import DomHost.Proofs.Scene.Gathering
import DomHost.Proofs.Scene.Styling
import DomHost.Proofs.Store.AttributeKeys

/-!
# Instructions and the keys of attributes

What no edit of an element takes away is kept by all instructions that write to elements, and by the descriptors that
elements are built of. An instruction that sets an attribute by a name can be taken back by one that removes the
attribute with this name.

* `Store.Steady.robust`, **`Scene.fits_written`**: instructions and what no edit takes away;
* `Descriptor.key_of_namedAttribute`: the key of the attribute that is set by a name;
* `Scene.exists_of_setAttribute`: an instruction that has set an attribute;
* **`Scene.exists_sets`**: it and the one that removes the attribute.
-/

namespace DomHost

variable {P : Element → Prop}

/-! ## What no edit takes away -/

theorem Store.Steady.robust (hP : Store.Steady P) (hread : ∀ f, ∀ x ∈ (Markup.image f).toList, x.Fits P) :
    Element.Robust P where
  bare := hP.bare
  read := hread
  control := hP.control
  named e _ _ _ h := hP.setAttr e _ h
  removeAttr := hP.removeAttr

theorem Store.Steady.toggled (hP : Store.Steady P) {e : Element} (he : P e) (key : String) (present : Bool)
    (force : Option Bool) : P (e.toggled key present force).2 := by
  unfold Element.toggled
  dsimp only
  split
  · exact he
  · split
    · exact hP.setAttr e _ he
    · exact hP.removeAttr e _ _ he

namespace Descriptor

theorem exists_of_attach {e e' : Element} {a : TemplateAttribute} (h : attach e a = .ok e') :
    ∃ b, namedAttribute e a = .ok b ∧ e' = e.setAttr b := by
  rw [attach_eq] at h
  cases hname : namedAttribute e a with
  | error err => rw [hname] at h; cases h
  | ok b =>
    rw [hname] at h
    cases h
    exact ⟨b, rfl, rfl⟩

theorem fits_attach (hP : Store.Steady P) {e e' : Element} (he : P e) {a : TemplateAttribute}
    (h : attach e a = .ok e') : P e' := by
  obtain ⟨b, -, rfl⟩ := exists_of_attach h
  exact hP.setAttr e b he

theorem fits_attached (hP : Store.Steady P) {e : Element} (he : P e) (attributes : List TemplateAttribute) :
    P (attached e attributes) := by
  induction attributes generalizing e with
  | nil => exact he
  | cons a rest ih =>
    rw [attached]
    split
    · rename_i e' ha
      exact ih (fits_attach hP he ha)
    · exact he

theorem fits_element? (hP : Store.Steady P) {d : Descriptor} {e : Element} (h : d.element? = some e) : P e := by
  cases d with
  | element tag ns attributes count slot =>
    rw [element?] at h
    cases hbare : bare tag ns with
    | error err => rw [hbare] at h; cases h
    | ok e₀ =>
      rw [hbare] at h
      cases h
      obtain ⟨localName, qualifier, ns', rfl⟩ := exists_of_bare hbare
      exact fits_attached hP (hP.bare localName qualifier ns') attributes
  | text t | dynamicText | placeholder => cases h

end Descriptor

namespace Scene

variable {κ : Type} {s t : Scene κ} {r : NodeRef} {e : Element} {id : NodeId} {name value : String}
  {ns : Option String}

/-- **All that an instruction writes to or builds keeps what no edit takes away.** -/
theorem fits_written (hP : Store.Steady P) (h : s.store.Every P) {i : Instruction} (he : e ∈ s.written i) : P e := by
  cases i with
  | setAttribute id name value ns =>
    obtain ⟨e₀, he₀, hattach⟩ := Option.bind_eq_some_iff.mp (Option.mem_toList.mp he)
    cases ha : Descriptor.attach e₀ ⟨name, value, ns⟩ with
    | error err => rw [ha] at hattach; cases hattach
    | ok e' =>
      rw [ha] at hattach
      cases hattach
      exact Descriptor.fits_attach hP (every_boundElement? h he₀) ha
  | toggleAttribute id name force =>
    obtain ⟨e₀, he₀, htoggle⟩ := Option.bind_eq_some_iff.mp (Option.mem_toList.mp he)
    obtain ⟨u, -, rfl⟩ := Option.map_eq_some_iff.mp htoggle
    exact hP.toggled (every_boundElement? h he₀) _ _ force
  | setStyle id property value =>
    obtain ⟨e₀, he₀, hdeclare⟩ := Option.bind_eq_some_iff.mp (Option.mem_toList.mp he)
    cases hdeclare
    exact hP.declare e₀ property value (every_boundElement? h he₀)
  | saveTemplate number ds =>
    obtain ⟨d, -, hd⟩ := List.mem_filterMap.mp (List.mem_filter.mp he).1
    exact Descriptor.fits_element? hP hd
  | _ => exact absurd he List.not_mem_nil

end Scene

/-! ## Setting and removing by a name -/

/-- **The attribute that is set by a name has the key that the name stands for.** -/
theorem Descriptor.key_of_namedAttribute {e : Element} {name value : String} {ns : Option String} {a : Attribute}
    (h : namedAttribute e ⟨name, value, ns⟩ = .ok a) : a.key = Store.attributeKey e name ns ∧ a.value = value := by
  cases ns with
  | some ns =>
    simp only [namedAttribute] at h
    cases hname : QualifiedName.extract (some ns) name with
    | error err => rw [hname] at h; cases h
    | ok q =>
      rw [hname] at h
      cases h
      exact ⟨QualifiedName.key_of_extract hname, rfl⟩
  | none =>
    simp only [namedAttribute] at h
    cases hname : validateName name with
    | error err => rw [hname] at h; cases h
    | ok u =>
      rw [hname] at h
      cases h
      exact ⟨rfl, rfl⟩

theorem Store.ends_updateElement_element (s : Store) (r : NodeRef) (f : Element → Element) :
    Ends (Store.updateElement r f) s (fun _ _ => ∃ e, s.element? r = some e) fun _ => True :=
  ((Store.ends_requireElement_element? s r).mono (fun _ _ h => h) fun _ _ => trivial).bind fun e _ h =>
    Ends.modify ⟨e, h.2⟩

theorem Store.removeAttribute_of_get? {s : Store} {r : NodeRef} {e : Element} (hr : s.get? r = some (.element e))
    (name : String) (ns : Option String) :
    Store.removeAttribute r ns name s = .ok () (s.setData r
      (.element { e with attributes := e.attributes.filter (·.key ≠ Store.attributeKey e name ns) })) := by
  refine (Store.updateElement_of_get? hr _).trans
    (congrArg (fun e' => EStateM.Result.ok () (s.setData r (.element e'))) ?_)
  cases ns with
  | some ns => exact e.removeAttr_eq _ _
  | none => exact e.removeAttr_eq _ _

namespace Scene

variable {κ : Type} {s t : Scene κ} {r : NodeRef} {e : Element} {id : NodeId} {name value : String}
  {ns : Option String}

theorem ends_writeAttribute_element (s : Scene κ) (r : NodeRef) (name value : String) (ns : Option String) :
    Ends (writeAttribute r name value ns) s (fun _ _ => ∃ e, s.store.element? r = some e) fun _ => True := by
  unfold writeAttribute
  cases ns with
  | some ns =>
    refine ends_onStore_fact s ((Ends.liftResult (Q := fun _ u => u = s.store) (fun _ _ => rfl) trivial).bind ?_)
    rintro q _ rfl
    exact Store.ends_updateElement_element s.store r _
  | none =>
    refine ends_onStore_fact s ((Ends.liftResult (Q := fun _ u => u = s.store) (fun _ _ => rfl) trivial).bind ?_)
    rintro u _ rfl
    exact Store.ends_updateElement_element s.store r _

/-- What an instruction that succeeded has set. -/
theorem exists_of_setAttribute (h : execute (.setAttribute id name value ns) s = .ok () t) :
    ∃ r e a, s.bindings.get? id = some r ∧ s.store.element? r = some e ∧
      Descriptor.namedAttribute e ⟨name, value, ns⟩ = .ok a ∧
      t = s.withStore (s.store.setData r (.element (e.setAttr a))) := by
  have hnode : ∃ r, s.bindings.get? id = some r := by
    refine (Ends.bind (Q := fun _ _ => ∃ r, s.bindings.get? id = some r) (E := fun _ => True)
      ((ends_node s id).mono (fun _ _ hr => hr) fun _ _ => trivial) fun r _ hr => ?_).ok h
    exact Ends.const ⟨r, hr.2⟩
  obtain ⟨r, hr⟩ := hnode
  have hrun : writeAttribute r name value ns s = .ok () t := by
    change (node id >>= fun r => writeAttribute r name value ns) s = .ok () t at h
    rwa [bind_of_ok (node_of_get? hr)] at h
  obtain ⟨e, he⟩ := (ends_writeAttribute_element s r name value ns).ok hrun
  obtain ⟨e', hattach⟩ := (ends_writeAttribute_attach s r ⟨name, value, ns⟩).ok hrun e
  have hset := writeAttribute_of_get? (Store.element?_eq_some_iff.mp he) hattach
  obtain ⟨a, ha, rfl⟩ := Descriptor.exists_of_attach hattach
  cases hrun.symm.trans hset
  exact ⟨r, e, a, hr, he, ha, rfl⟩

/-- **What an instruction has set under one key, the instruction that removes the attribute takes out again, with all
that was there under the key before.** -/
theorem exists_sets (h : execute (.setAttribute id name value ns) s = .ok () t) :
    ∃ r e e', s.bindings.get? id = some r ∧ s.store.element? r = some e ∧
      t = s.withStore (s.store.setData r (.element e')) ∧ e.Sets (Store.attributeKey e name ns) value e' ∧
      execute (.removeAttribute id name ns) t = .ok () (s.withStore (s.store.setData r
        (.element { e with attributes := e.attributes.filter (·.key ≠ Store.attributeKey e name ns) }))) := by
  obtain ⟨r, e, a, hid, he, ha, rfl⟩ := exists_of_setAttribute h
  obtain ⟨hkey, rfl⟩ := Descriptor.key_of_namedAttribute ha
  have hsets := e.sets_setAttr a
  rw [hkey] at hsets
  refine ⟨r, e, _, hid, he, rfl, hsets, ?_⟩
  have hnew : (s.store.setData r (.element (e.setAttr a))).get? r = some (.element (e.setAttr a)) := by
    rw [Store.get?_setData, if_pos rfl, Store.element?_eq_some_iff.mp he]
    rfl
  have hbound : (s.withStore (s.store.setData r (.element (e.setAttr a)))).bindings.get? id = some r := hid
  refine (bind_of_ok (f := fun r => onDocument (Document.onStore (Store.removeAttribute r ns name)))
    (node_of_get? hbound)).trans ?_
  refine (onStore_of_ok (Store.removeAttribute_of_get? hnew name ns)).trans ?_
  have hname : Store.attributeKey (e.setAttr a) name ns = Store.attributeKey e name ns := by cases ns <;> rfl
  rw [hname, hsets.others, withStore_withStore]
  exact congrArg _ (congrArg _ (Store.setData_setData _ _ _ _))

end Scene

end DomHost
