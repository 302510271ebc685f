import DomHost.Proofs.Cautious
import DomHost.Proofs.Store.Links

/-!
# Toggled attributes

Setting, removing and testing an attribute go by one key, its namespace and local name. A toggle tests the
lowercased name, whatever the namespace of the element, and then sets or removes by the name that an element
of that namespace keeps. Where the two names differ, what is tested need not be what is written.

* `Element.attr?_setAttr`, `Element.hasAttr_removeAttr`: an attribute that was set, and one that was removed;
* `Element.others_setAttr`, `Element.others_removeAttr`: the other attributes;
* `Element.toggled`, `Store.toggleAttribute_of_get?`: what a toggle makes of an element;
* `Element.Toggles`: what a true toggle makes of it;
* **`Store.toggleAttribute_toggles_iff`**: when the two agree.
-/

namespace DomHost

namespace Element

variable {a : Attribute} {l : List Attribute} {e : Element} {key name value : String}

/-! ## Attributes by their keys -/

theorem find?_writeAttr (a : Attribute) (l : List Attribute) :
    ((writeAttr a l).find? (·.hasKey a.ns a.localName)).map (·.value) = some a.value := by
  induction l with
  | nil => simp [writeAttr, Attribute.hasKey]
  | cons b l ih =>
    rw [writeAttr]
    split
    · rename_i hb
      rw [List.find?_cons_of_pos (by exact hb)]
      rfl
    · rename_i hb
      rw [List.find?_cons_of_neg (by exact hb)]
      exact ih

theorem filter_writeAttr (a : Attribute) (l : List Attribute) :
    (writeAttr a l).filter (!·.hasKey a.ns a.localName) = l.filter (!·.hasKey a.ns a.localName) := by
  induction l with
  | nil => simp [writeAttr, Attribute.hasKey]
  | cons b l ih =>
    rw [writeAttr]
    split
    · rename_i hb
      have hb' : ({ b with value := a.value } : Attribute).hasKey a.ns a.localName = true := hb
      simp only [List.filter_cons, hb, hb']
      rfl
    · rename_i hb
      simp [hb, ih]

/-- Over an attribute with the same key, only writing its own value changes nothing. -/
theorem writeAttr_eq_self_iff {b : Attribute} (h : l.find? (·.hasKey a.ns a.localName) = some b) :
    writeAttr a l = l ↔ b.value = a.value := by
  induction l with
  | nil => cases h
  | cons c l ih =>
    rw [writeAttr]
    split
    · rename_i hc
      rw [List.find?_cons_of_pos (by exact hc)] at h
      obtain rfl := Option.some.inj h
      constructor
      · intro he
        rw [← (List.cons.inj he).1]
      · intro he
        rw [← he]
    · rename_i hc
      rw [List.find?_cons_of_neg (by exact hc)] at h
      rw [List.cons_inj_right]
      exact ih h

/-- The attributes but the one of a name without namespace, in order. -/
def others (e : Element) (key : String) : List Attribute := e.attributes.filter (!·.hasKey none key)

@[simp] theorem attr?_setAttr (e : Element) (key value : String) :
    (e.setAttr (.plain key value)).attr? key = some value :=
  find?_writeAttr (.plain key value) e.attributes

@[simp] theorem hasAttr_setAttr (e : Element) (key value : String) :
    (e.setAttr (.plain key value)).hasAttr key = true := by
  rw [hasAttr, attr?_setAttr]
  rfl

@[simp] theorem others_setAttr (e : Element) (key value : String) :
    (e.setAttr (.plain key value)).others key = e.others key :=
  filter_writeAttr (.plain key value) e.attributes

theorem attributes_setAttr_eq_iff (h : e.hasAttr key = true) :
    (e.setAttr (.plain key value)).attributes = e.attributes ↔ e.attr? key = some value := by
  rw [hasAttr, attr?, attrNs?, Option.isSome_map] at h
  obtain ⟨b, hb⟩ := Option.isSome_iff_exists.mp h
  rw [attr?, attrNs?, hb, Option.map_some, Option.some_inj]
  exact writeAttr_eq_self_iff hb

@[simp] theorem hasAttr_removeAttr (e : Element) (key : String) : (e.removeAttr none key).hasAttr key = false := by
  have hnone : (e.removeAttr none key).attributes.find? (·.hasKey none key) = none := by
    refine List.find?_eq_none.mpr fun b hb hkey => ?_
    have := (List.mem_filter.mp hb).2
    simp [hkey] at this
  rw [hasAttr, attr?, attrNs?, hnone]
  rfl

@[simp] theorem others_removeAttr (e : Element) (key : String) :
    (e.removeAttr none key).others key = e.others key := by
  rw [others, removeAttr, others, List.filter_filter]
  simp only [Bool.and_self]

/-! ## Toggling -/

/-- The answer of a toggle that found the attribute to be present or not, and what it makes of the element. -/
def toggled (e : Element) (key : String) (present : Bool) (force : Option Bool) : Bool × Element :=
  let on := force.getD (!present)
  (on, if on == present then e else if on then e.setAttr (.plain key "") else e.removeAttr none key)

/-- A true toggle of the attribute with a name and no namespace. -/
structure Toggles (e : Element) (key : String) (force : Option Bool) (on : Bool) (e' : Element) : Prop where
  answer : on = force.getD (!e.hasAttr key)
  present : e'.hasAttr key = on
  kept : e.hasAttr key = true → on = true → e'.attributes = e.attributes
  others : e'.others key = e.others key
  rest : { e' with attributes := e.attributes } = e

/-- A toggle that tests the attribute it writes is a true one. -/
theorem toggles_toggled (e : Element) (key : String) (force : Option Bool) :
    e.Toggles key force (e.toggled key (e.hasAttr key) force).1 (e.toggled key (e.hasAttr key) force).2 := by
  unfold toggled
  dsimp only
  cases hon : force.getD (!e.hasAttr key) <;> cases hpresent : e.hasAttr key
  case false.false => exact ⟨hpresent ▸ hon.symm, hpresent, fun _ h => Bool.noConfusion h, rfl, rfl⟩
  case true.true => exact ⟨hpresent ▸ hon.symm, hpresent, fun _ _ => rfl, rfl, rfl⟩
  case false.true =>
    exact ⟨hpresent ▸ hon.symm, e.hasAttr_removeAttr key, fun _ h => Bool.noConfusion h, e.others_removeAttr key, rfl⟩
  case true.false =>
    refine ⟨hpresent ▸ hon.symm, e.hasAttr_setAttr key "", fun h => ?_, e.others_setAttr key "", rfl⟩
    rw [hpresent] at h
    cases h

/-- Otherwise it is one only if it is forced to what there is already. -/
theorem toggles_toggled_iff (e : Element) (key : String) (present : Bool) (force : Option Bool) :
    e.Toggles key force (e.toggled key present force).1 (e.toggled key present force).2 ↔
      present = e.hasAttr key ∨ (force = some false ∧ e.hasAttr key = false) ∨
        (force = some true ∧ e.attr? key = some "") := by
  by_cases hpresent : present = e.hasAttr key
  · rw [hpresent]
    exact iff_of_true (e.toggles_toggled key force) (Or.inl rfl)
  · have hnot : present = !e.hasAttr key := Bool.eq_not.mpr hpresent
    rw [or_iff_right hpresent]
    subst hnot
    unfold toggled
    dsimp only
    cases force with
    | none =>
      -- The answer is the presence that was there before.
      refine iff_of_false (fun h => ?_) (by simp)
      simpa using h.answer
    | some on =>
      cases on with
      | false =>
        -- Nothing is removed where the attribute is, and nothing is there where one is removed.
        cases hkey : e.hasAttr key with
        | false =>
          exact iff_of_true ⟨by simp, e.hasAttr_removeAttr key, fun _ h => Bool.noConfusion h,
            e.others_removeAttr key, rfl⟩ (Or.inl ⟨rfl, rfl⟩)
        | true =>
          refine iff_of_false (fun h => ?_) (by simp)
          simpa [hkey] using h.present
      | true =>
        -- Nothing is written where there is no attribute, and one that is there is written over.
        cases hkey : e.hasAttr key with
        | false =>
          refine iff_of_false (fun h => ?_) ?_
          · simpa [hkey] using h.present
          · rintro (⟨h, -⟩ | ⟨-, h⟩)
            · cases h
            · rw [hasAttr, h] at hkey
              cases hkey
        | true =>
          rw [← attributes_setAttr_eq_iff hkey]
          constructor
          · exact fun h => Or.inr ⟨rfl, h.kept hkey rfl⟩
          · rintro (⟨h, -⟩ | ⟨-, h⟩)
            · cases h
            · exact ⟨by simp, e.hasAttr_setAttr key "", fun _ _ => h, e.others_setAttr key "", rfl⟩

end Element

namespace Store

variable {s : Store} {r : NodeRef} {e : Element} {name : String}

/-- A name without namespace is lowercased on HTML elements, and kept on all others. -/
theorem attributeName_of_ns (h : e.ns = none) (name : String) : attributeName e name = name.toLower := by
  rw [attributeName, h]
  rfl

/-- Giving a node the data it has changes nothing. -/
theorem WellFormed.setData_eq_self (h : s.WellFormed) {d : NodeData} (hr : s.get? r = some d) :
    s.setData r d = s := by
  have hm := h.get?_eq_some_iff.mp hr
  refine congrArg (Store.mk s.cells) (Forest.relabel_eq_self fun n hn hp => ?_)
  rw [h.node_eq hn hm (is_iff.mp hp)]

/-- The data that are given last count. -/
theorem setData_setData (s : Store) (r : NodeRef) (x y : NodeData) :
    (s.setData r x).setData r y = s.setData r y :=
  congrArg (Store.mk s.cells)
    (Forest.relabel_relabel (p := is r) (g := fun n => { n with data := x }) (fun _ hn => hn) s.forest)

theorem setAttribute_of_get? (hr : s.get? r = some (.element e)) (hname : validateName name = .ok ())
    (value : String) :
    setAttribute r name value s = .ok () (s.setData r (.element (e.setAttr (.plain (attributeName e name) value)))) := by
  unfold setAttribute
  rw [hname]
  exact updateElement_of_get? hr fun e => e.setAttr (.plain (attributeName e name) value)

/-- **A toggle of a live element.** -/
theorem WellFormed.toggleAttribute_of_get? (h : s.WellFormed) (hr : s.get? r = some (.element e))
    (hname : validateName name = .ok ()) (force : Option Bool) :
    let toggled := e.toggled (attributeName e name) (e.hasAttr name.toLower) force
    toggleAttribute r name force s = .ok toggled.1 (s.setData r (.element toggled.2)) := by
  have helement : requireElement r s = .ok e s := by
    unfold requireElement
    rw [bind_of_ok (require_of_get? hr)]
    rfl
  unfold toggleAttribute Element.toggled
  rw [hname]
  change (requireElement r >>= _) s = _
  rw [bind_of_ok helement]
  dsimp only
  cases force.getD (!e.hasAttr name.toLower) <;> cases e.hasAttr name.toLower
  case false.false => exact congrArg _ (h.setData_eq_self hr).symm
  case true.true => exact congrArg _ (h.setData_eq_self hr).symm
  case true.false =>
    refine (bind_of_ok (setAttribute_of_get? hr hname "")).trans ?_
    rfl
  case false.true =>
    refine (bind_of_ok (updateElement_of_get? hr _)).trans ?_
    rfl

/-- On an element without namespace every toggle is a true one. -/
theorem WellFormed.toggleAttribute_toggles (h : s.WellFormed) (hr : s.get? r = some (.element e))
    (hns : e.ns = none) (hname : validateName name = .ok ()) (force : Option Bool) :
    ∃ on e', toggleAttribute r name force s = .ok on (s.setData r (.element e')) ∧
      e.Toggles name.toLower force on e' := by
  refine ⟨_, _, h.toggleAttribute_of_get? hr hname force, ?_⟩
  rw [attributeName_of_ns hns]
  exact e.toggles_toggled name.toLower force

/-- **On any live element a toggle by a valid name succeeds. It is a true one just if the lowercased name is as
present as the name that is written, or if it forces the attribute to what there is: off where it is absent,
or on where it has the empty value.** -/
theorem WellFormed.toggleAttribute_toggles_iff (h : s.WellFormed) (hr : s.get? r = some (.element e))
    (hname : validateName name = .ok ()) (force : Option Bool) :
    ∃ on e', toggleAttribute r name force s = .ok on (s.setData r (.element e')) ∧
      (e.Toggles (attributeName e name) force on e' ↔
        e.hasAttr name.toLower = e.hasAttr (attributeName e name) ∨
          (force = some false ∧ e.hasAttr (attributeName e name) = false) ∨
          (force = some true ∧ e.attr? (attributeName e name) = some "")) :=
  ⟨_, _, h.toggleAttribute_of_get? hr hname force, e.toggles_toggled_iff _ _ force⟩

/-- An attribute with a name in lower case is toggled off, in a namespace too. -/
theorem exists_toggles :
    let e : Element := ⟨"svg", none, some svgNs, [.plain "viewBox" "0 0 8 8", .plain "hidden" ""], [], {}⟩
    let s := [Operation.insertNode (.element e) rfl].foldl Operation.apply .new
    s.WellFormed ∧ s.get? (.cell 1 0) = some (.element e) ∧ validateName "hidden" = .ok () ∧
      ∃ e', toggleAttribute (.cell 1 0) "hidden" none s = .ok false (s.setData (.cell 1 0) (.element e')) ∧
        e.Toggles (attributeName e "hidden") none false e' := by
  intro e s
  have h : s.WellFormed := wellFormed_new.foldl_apply _
  have hr : s.get? (.cell 1 0) = some (.element e) := by decide +kernel
  have hname : validateName "hidden" = .ok () := by decide +kernel
  obtain ⟨on, e', hrun, hiff⟩ := h.toggleAttribute_toggles_iff hr hname none
  have htrue := hiff.mpr (Or.inl (by decide +kernel))
  obtain rfl : on = false := htrue.answer.trans (by decide +kernel)
  exact ⟨h, hr, hname, e', hrun, htrue⟩

/-- What was toggled on in a namespace is not toggled off again: the name that is tested is in lower case, the one
that is written is not. -/
theorem not_forall_toggles : ¬ ∀ (s : Store) (r : NodeRef) (e : Element) (name : String) (force : Option Bool),
    s.WellFormed → s.get? r = some (.element e) → validateName name = .ok () →
      ∃ on e', toggleAttribute r name force s = .ok on (s.setData r (.element e')) ∧
        e.Toggles (attributeName e name) force on e' := by
  intro H
  let e : Element := ⟨"svg", none, some svgNs, [.plain "viewBox" ""], [], {}⟩
  have h : ([Operation.insertNode (.element e) rfl].foldl Operation.apply .new).WellFormed :=
    wellFormed_new.foldl_apply _
  have hr : ([Operation.insertNode (.element e) rfl].foldl Operation.apply .new).get? (.cell 1 0) =
      some (.element e) := by decide +kernel
  have hname : validateName "viewBox" = .ok () := by decide +kernel
  obtain ⟨on, e', hrun, htrue⟩ := H _ _ e "viewBox" none h hr hname
  rw [h.toggleAttribute_of_get? hr hname none] at hrun
  have hon : on = true := by
    injection hrun with hon _
    exact hon.symm.trans (by decide +kernel)
  have hoff : on = false := htrue.answer.trans (by decide +kernel)
  exact Bool.noConfusion (hon.symm.trans hoff)

end Store

end DomHost
