import DomHost.Proofs.Scene.Elements
import DomHost.Proofs.Store.StyleAttribute

/-!
# Instructions and the attribute `style`

An instruction that sets or toggles an attribute does not look at the declarations of the element, and one that
declares a property does not look at its attributes. So a second attribute `style` appears just where one of them is
used while the other place is filled, or where a template is built with two of them.

* `Element.robust_styledOnce`: what is created or read has one attribute `style` at most;
* `Element.styledOnce_toggled_iff`: a toggle;
* `Descriptor.namedAttribute`, `Descriptor.Doubles`: attributes by their names, and descriptors that name a second one;
* **`Descriptor.styledOnce_element?_iff`**: the element that is left of a descriptor;
* `Scene.Doubles`, **`Scene.forall_written_iff`**: instructions that add a second attribute;
* `Scene.not_doubles_saveTemplate`: templates whose attributes have no namespaces.
-/

namespace DomHost

namespace Element

variable {e : Element} {a : Attribute}

theorem robust_styledOnce : Robust StyledOnce where
  bare := Store.bare_styledOnce
  read := Markup.styledOnce_image
  control _ _ h := h
  named e name hname value h := h.setAttr fun he => by
    rw [show name = "style" from he] at hname
    exact absurd hname (by decide)
  removeAttr _ ns localName h := h.removeAttr ns localName

/-- **A toggle leaves one attribute `style` at most just if it does not turn on a second one.** -/
theorem styledOnce_toggled_iff (h : e.StyledOnce) (name : String) (force : Option Bool) :
    (e.toggled (Store.attributeName e name) (e.hasAttr name.toLower) force).2.StyledOnce ↔
      ¬ (force ≠ some false ∧ e.Doubles (.plain name.toLower "")) := by
  by_cases hns : e.ns = none
  · rw [Store.attributeName_of_ns hns]
    have habsent : e.Doubles (.plain name.toLower "") → e.hasAttr name.toLower = false := fun hd => by
      rw [hasAttr, show e.attr? name.toLower = none from hd.2.2.1]
      rfl
    unfold toggled
    dsimp only
    cases hpresent : e.hasAttr name.toLower with
    | true =>
      have hnot : ¬ (force ≠ some false ∧ e.Doubles (.plain name.toLower "")) := fun hd => by
        cases hpresent.symm.trans (habsent hd.2)
      refine iff_of_true ?_ hnot
      cases force.getD (!true) with
      | true => exact h
      | false => exact h.removeAttr none _
    | false =>
      cases force with
      | none => exact (styledOnce_setAttr_iff h _).trans (not_congr (and_iff_right (by simp)).symm)
      | some on =>
        cases on with
        | true => exact (styledOnce_setAttr_iff h _).trans (not_congr (and_iff_right (by simp)).symm)
        | false => exact iff_of_true h (by simp)
  · refine iff_of_true (fun hnone => absurd ?_ hns) fun hd => hns hd.2.1
    unfold toggled at hnone
    dsimp only at hnone
    split at hnone
    · exact hnone
    · split at hnone <;> exact hnone

/-! ## Plain attributes -/

/-- Nothing is declared, and no attribute has a qualifier or a namespace. -/
structure PlainOnly (e : Element) : Prop where
  style : e.style = []
  attributes : ∀ a ∈ e.attributes, a.qualifier = none ∧ a.ns = none

theorem mem_writeAttr {b : Attribute} {l : List Attribute} (h : b ∈ writeAttr a l) :
    b = a ∨ ∃ c ∈ l, b = { c with value := a.value } ∨ b = c := by
  induction l with
  | nil => exact Or.inl (List.mem_singleton.mp h)
  | cons c l ih =>
    rw [writeAttr] at h
    split at h
    · rcases List.mem_cons.mp h with rfl | h
      · exact Or.inr ⟨c, List.mem_cons_self, Or.inl rfl⟩
      · exact Or.inr ⟨b, List.mem_cons_of_mem c h, Or.inr rfl⟩
    · rcases List.mem_cons.mp h with rfl | h
      · exact Or.inr ⟨b, List.mem_cons_self, Or.inr rfl⟩
      · rcases ih h with hb | ⟨d, hd, hb⟩
        · exact Or.inl hb
        · exact Or.inr ⟨d, List.mem_cons_of_mem c hd, hb⟩

theorem PlainOnly.setAttr (h : e.PlainOnly) (name value : String) : (e.setAttr (.plain name value)).PlainOnly where
  style := h.style
  attributes b hb := by
    rcases mem_writeAttr hb with rfl | ⟨c, hc, rfl | rfl⟩
    · exact ⟨rfl, rfl⟩
    · exact h.attributes c hc
    · exact h.attributes b hc

/-- Attributes without namespace write over each other. -/
theorem PlainOnly.not_doubles (h : e.PlainOnly) (name value : String) : ¬ e.Doubles (.plain name value) := by
  rintro ⟨-, hstyles, hnone, hname⟩
  refine hstyles ?_
  rw [styles_eq, if_pos h.style, Nat.add_zero, List.countP_eq_zero]
  intro b hb hwritten
  obtain ⟨hqualifier, hns⟩ := h.attributes b hb
  have hlocal : b.localName = "style" := by
    rw [beq_iff_eq, Attribute.qualifiedName, hqualifier] at hwritten
    exact hwritten
  obtain rfl : name = "style" := hname
  rw [attrNs?, Option.map_eq_none_iff, List.find?_eq_none] at hnone
  exact hnone b hb (by simp [Attribute.hasKey, Attribute.plain, hns, hlocal])

end Element

/-! ## Descriptors -/

namespace Descriptor

/-- The attribute that a name stands for on an element. -/
def namedAttribute (e : Element) (a : TemplateAttribute) : Except DomError Attribute :=
  match a.ns with
  | some ns => (QualifiedName.extract (some ns) a.name).map fun q => ⟨q.localName, q.qualifier, q.ns, a.value⟩
  | none => (validateName a.name).map fun _ => .plain (Store.attributeName e a.name) a.value

theorem attach_eq (e : Element) (a : TemplateAttribute) : attach e a = (namedAttribute e a).map e.setAttr := by
  obtain ⟨name, value, ns⟩ := a
  cases ns with
  | some ns =>
    simp only [attach, namedAttribute]
    cases QualifiedName.extract (some ns) name <;> rfl
  | none =>
    simp only [attach, namedAttribute]
    cases validateName name <;> rfl

/-- Is one of the attributes, which are set on an element in turn, a second one called `style`? The first one that is
refused ends it. -/
def DoublesFrom (e : Element) : List TemplateAttribute → Prop
  | [] => False
  | a :: rest => ∃ b ∈ (namedAttribute e a).toOption, e.Doubles b ∨ DoublesFrom (e.setAttr b) rest

/-- Do the attributes of a described element have a second one called `style` among them? -/
def Doubles : Descriptor → Prop
  | element tag ns attributes _ _ => ∃ e ∈ (bare tag ns).toOption, DoublesFrom e attributes
  | _ => False

instance decidableDoublesFrom (e : Element) : (attributes : List TemplateAttribute) → Decidable (DoublesFrom e attributes)
  | [] => inferInstanceAs (Decidable False)
  | a :: rest =>
    have := fun b => decidableDoublesFrom (e.setAttr b) rest
    inferInstanceAs (Decidable (∃ b ∈ (namedAttribute e a).toOption, e.Doubles b ∨ DoublesFrom (e.setAttr b) rest))

instance : (d : Descriptor) → Decidable d.Doubles
  | element tag ns attributes _ _ => inferInstanceAs (Decidable (∃ e ∈ (bare tag ns).toOption, DoublesFrom e attributes))
  | text _ | dynamicText | placeholder => inferInstanceAs (Decidable False)

/-- What is there twice stays so. -/
theorem not_styledOnce_attached {e : Element} (h : ¬ e.StyledOnce) (attributes : List TemplateAttribute) :
    ¬ (attached e attributes).StyledOnce := by
  induction attributes generalizing e with
  | nil => exact h
  | cons a rest ih =>
    rw [attached, attach_eq]
    cases namedAttribute e a with
    | error err => exact h
    | ok b => exact ih fun hb => h fun hns => (Nat.le_add_right _ _).trans (e.styles_setAttr b ▸ hb hns)

/-- **Attributes that are set in turn leave one attribute `style` at most just if none is a second one.** -/
theorem styledOnce_attached_iff {e : Element} (h : e.StyledOnce) (attributes : List TemplateAttribute) :
    (attached e attributes).StyledOnce ↔ ¬ DoublesFrom e attributes := by
  induction attributes generalizing e with
  | nil => exact iff_of_true h id
  | cons a rest ih =>
    rw [attached, attach_eq, DoublesFrom]
    cases namedAttribute e a with
    | error err => simpa [Except.map, Except.toOption] using h
    | ok b =>
      have hone := Element.styledOnce_setAttr_iff h b
      simp only [Except.map, Except.toOption, Option.mem_def, Option.some.injEq, exists_eq_left', not_or]
      by_cases hb : e.Doubles b
      · exact iff_of_false (not_styledOnce_attached (hone.not.mpr (not_not.mpr hb)) rest) fun hn => hn.1 hb
      · rw [ih (hone.mpr hb), and_iff_right hb]

/-- **The element that is left of a descriptor has one attribute `style` at most just if no second one is named.** -/
theorem styledOnce_element?_iff {d : Descriptor} {e : Element} (he : d.element? = some e) :
    e.StyledOnce ↔ ¬ d.Doubles := by
  cases d with
  | element tag ns attributes count slot =>
    rw [element?] at he
    cases hbare : bare tag ns with
    | error err => simp [hbare, Except.toOption] at he
    | ok e₀ =>
      obtain ⟨localName, qualifier, ns', rfl⟩ := exists_of_bare hbare
      rw [hbare] at he
      rw [← Option.some.inj he, styledOnce_attached_iff (Store.bare_styledOnce _ _ _), Doubles, hbare]
      simp [Except.toOption]
  | _ => cases he

/-- No attribute has a namespace. -/
def NoNamespaces : Descriptor → Prop
  | element _ _ attributes _ _ => ∀ a ∈ attributes, a.ns = none
  | _ => True

/-- Attributes without namespaces write over each other. -/
theorem not_doublesFrom {e : Element} (he : e.PlainOnly) {attributes : List TemplateAttribute}
    (hns : ∀ a ∈ attributes, a.ns = none) : ¬ DoublesFrom e attributes := by
  induction attributes generalizing e with
  | nil => exact id
  | cons a rest ih =>
    obtain ⟨ha, hrest⟩ := List.forall_mem_cons.mp hns
    rw [DoublesFrom, namedAttribute, ha]
    cases validateName a.name with
    | error err => simp [Except.map, Except.toOption]
    | ok u =>
      simpa [Except.map, Except.toOption] using ⟨he.not_doubles _ _, ih (he.setAttr _ _) hrest⟩

/-- **Without namespaces no descriptor names a second attribute `style`.** -/
theorem NoNamespaces.not_doubles {d : Descriptor} (h : d.NoNamespaces) : ¬ d.Doubles := by
  cases d with
  | element tag ns attributes count slot =>
    rintro ⟨e, he, hdoubles⟩
    cases hbare : bare tag ns with
    | error err => simp [hbare, Except.toOption] at he
    | ok e₀ =>
      obtain ⟨localName, qualifier, ns', rfl⟩ := exists_of_bare hbare
      rw [hbare] at he
      rw [← Option.some.inj he] at hdoubles
      exact not_doublesFrom ⟨rfl, by simp⟩ h hdoubles
  | _ => exact id

/-- In a namespace a second one may be named. -/
example : (element "div" none [⟨"style", "top: 0", none⟩, ⟨"style", "left: 0", some "urn:x"⟩] 0 false).Doubles := by
  decide +kernel

end Descriptor

/-! ## Instructions -/

namespace Scene

variable {κ : Type} {s : Scene κ} {i : Instruction}

/-- Does the instruction add a second attribute `style` to an element outside all namespaces? -/
def Doubles (s : Scene κ) : Instruction → Prop
  | .setAttribute id name value ns =>
    ∃ e ∈ s.boundElement? id, ∃ a ∈ (Descriptor.namedAttribute e ⟨name, value, ns⟩).toOption, e.Doubles a
  | .toggleAttribute id name force =>
    ∃ e ∈ s.boundElement? id, validateName name = .ok () ∧ force ≠ some false ∧ e.Doubles (.plain name.toLower "")
  | .setStyle id _ value => ∃ e ∈ s.boundElement? id, e.DoublesDeclared value
  | .saveTemplate number ds =>
    ∃ d ∈ ds, d.Doubles ∧ ∃ e ∈ d.element?, (s.outcome (.saveTemplate number ds)).Has e
  | _ => False

instance (s : Scene κ) : (i : Instruction) → Decidable (s.Doubles i) := fun i => by
  unfold Doubles
  split <;> infer_instance

/-- **What an instruction has written to or built has one attribute `style` at most just if no second one was
added.** -/
theorem forall_written_iff (h : s.store.Every Element.StyledOnce) (i : Instruction) :
    (∀ e ∈ s.written i, e.StyledOnce) ↔ ¬ s.Doubles i := by
  have hbound : ∀ {id e}, s.boundElement? id = some e → e.StyledOnce := every_boundElement? h
  cases i with
  | setAttribute id name value ns =>
    simp only [written, Doubles]
    cases he : s.boundElement? id with
    | none => simp
    | some e =>
      simp only [Option.bind_some, Descriptor.attach_eq]
      cases ha : Descriptor.namedAttribute e ⟨name, value, ns⟩ with
      | error err => simp [ha, Except.map, Except.toOption]
      | ok a => simpa [ha, Except.map, Except.toOption] using Element.styledOnce_setAttr_iff (hbound he) a
  | toggleAttribute id name force =>
    simp only [written, Doubles]
    cases he : s.boundElement? id with
    | none => simp
    | some e =>
      cases validateName name with
      | error err => simp [Except.toOption]
      | ok u => simpa [Except.toOption] using Element.styledOnce_toggled_iff (hbound he) name force
  | setStyle id property value =>
    simp only [written, Doubles]
    cases he : s.boundElement? id with
    | none => simp
    | some e => simpa using Element.styledOnce_declare_iff (hbound he) property value
  | saveTemplate number ds =>
    simp only [written, Doubles, List.mem_filter, List.mem_filterMap, decide_eq_true_eq, not_exists, not_and]
    constructor
    · exact fun hall d hd hdoubles e he hhas =>
        (Descriptor.styledOnce_element?_iff he).mp (hall e ⟨⟨d, hd, he⟩, hhas⟩) hdoubles
    · rintro hnone e ⟨⟨d, hd, he⟩, hhas⟩
      exact (Descriptor.styledOnce_element?_iff he).mpr fun hdoubles => hnone d hd hdoubles e he hhas
  | _ => simp [written, Doubles]

/-- **A template whose attributes are described without namespaces adds no second one.** -/
theorem not_doubles_saveTemplate (s : Scene κ) (number : UInt32) {ds : List Descriptor} (h : ∀ d ∈ ds, d.NoNamespaces) :
    ¬ s.Doubles (.saveTemplate number ds) := fun ⟨d, hd, hdoubles, _⟩ => (h d hd).not_doubles hdoubles

end Scene

end DomHost
