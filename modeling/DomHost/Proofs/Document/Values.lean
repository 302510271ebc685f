import DomHost.Proofs.Cautious
import DomHost.Proofs.Store.Elements
import DomHost.Proofs.Store.TextContent
import DomHost.Proofs.Store.Toggling
import Mathlib.Data.List.Find

/-!
# Assigned values

The value of a control is part of its state, and that of any other element an attribute. A `select` has no value of
its own: it shows that of an option below it, and what is assigned to it marks the first option with this value. The
marks change nothing that the value of an option is read from, so the values may be read while the marks are made.

* `Store.element?_setData`, `Store.Distinct.textContent_setData`: an element that becomes another one;
* `Document.Recasts`, `Document.recasts_updateElement`: documents that differ in their elements only;
* **`Document.select_recasts`**: the marks on the options of a `select`;
* `Document.choices`, `Document.length_selectedOptions`: the options below a `select`, and those it shows;
* `Document.Chooses`, **`Document.setValue_reads`**: what is read after a value was assigned.
-/

namespace DomHost

/-! ## Elements that change -/

namespace Store

variable {s : Store} {r x : NodeRef} {e e' : Element}

theorem element?_setData (hr : s.element? r = some e) (e' : Element) (x : NodeRef) :
    (s.setData r (.element e')).element? x = if x = r then some e' else s.element? x := by
  rw [element?, get?_setData]
  split
  · rename_i hx
    rw [hx, element?_eq_some_iff.mp hr]
    rfl
  · rfl

theorem descendants_setData (s : Store) (r x : NodeRef) (data : NodeData) :
    (s.setData r data).descendants x = s.descendants x := by
  have href : ∀ n : Node, (if is r n then { n with data } else n).ref = n.ref := by
    intro n
    split <;> rfl
  unfold descendants
  rw [tree?_setData]
  cases s.tree? x with
  | none => rfl
  | some t =>
    simp only [Option.map_some, href, Forest.toList_relabel, List.map_map]
    exact congrArg _ (List.map_congr_left fun n _ => href n)

/-- Elements are no text, so the texts are the same when one becomes another. -/
theorem Distinct.textContent_setData (h : s.Distinct) (hr : s.element? r = some e) (e' : Element) (x : NodeRef) :
    (s.setData r (.element e')).textContent x = s.textContent x := by
  have hold : ∀ n ∈ s.forest.toList, is r n = true → n.data = .element e := fun n hn he => by
    have hget := element?_eq_some_iff.mp hr
    rw [← is_iff.mp he, h.get?_eq_some_iff.mpr hn] at hget
    exact Option.some.inj hget
  have htexts : ∀ {c : Forest Node}, (∀ n ∈ c.toList, n ∈ s.forest.toList) →
      (c.relabel (is r) fun n => { n with data := .element e' }).toList.filterMap (·.data.text?) =
        c.toList.filterMap (·.data.text?) := by
    intro c hc
    rw [Forest.toList_relabel, List.filterMap_map]
    refine List.filterMap_congr fun n hn => ?_
    rw [Function.comp_apply]
    split
    · rw [hold n (hc n hn) ‹_›]
      rfl
    · rfl
  unfold textContent
  rw [tree?_setData]
  cases ht : s.tree? x with
  | none => rfl
  | some t =>
    obtain ⟨⟨x', data⟩, c⟩ := t
    have hc := htexts fun n hn => Forest.mem_toList_of_find? ht hn
    by_cases he : is r ⟨x', data⟩ = true
    · have hdata := hold _ (Forest.mem_toList_of_mem_trees (mem_trees_of_tree? ht).1) he
      dsimp only at hdata
      subst hdata
      simp only [Option.map_some, he, if_true, hc]
    · cases data <;> simp only [Option.map_some, he, if_false, hc, Bool.false_eq_true]

end Store

/-- The element, marked as selected or not. -/
def Element.mark (e : Element) (on : Bool) : Element :=
  { e with control := { e.control with selected := some on } }

namespace Document

variable {d d' d'' : Document} {r o : NodeRef} {e : Element} {value : String} {options : List NodeRef}
  {g g' : NodeRef → Element → Element}

/-! ## Values -/

/-- An input and a text area have the value that they were given. -/
theorem value?_of_control (he : d.store.element? r = some e) (hk : e.kind = .input ∨ e.kind = .textArea)
    (hv : e.control.value = some value) : d.value? r = some value := by
  unfold value?
  rw [he]
  rcases hk with hk | hk <;> simp only [Option.bind_eq_bind, Option.bind_some, hk, hv, Option.getD_some]

/-- An attribute is the value of what is neither an input, a text area nor a `select`. -/
theorem value?_of_attr (he : d.store.element? r = some e)
    (hk : e.kind = .selectOption ∨ e.kind = .form ∨ e.kind = .generic) (hv : e.attr? "value" = some value) :
    d.value? r = some value := by
  unfold value?
  rw [he]
  rcases hk with hk | hk | hk <;>
    simp only [Option.bind_eq_bind, Option.bind_some, hk, optionValue, hv, Option.getD_some]

theorem value?_of_option (he : d.store.element? o = some e) (hk : e.kind = .selectOption) :
    d.value? o = some (d.optionValue o e) := by
  unfold value?
  rw [he]
  simp only [Option.bind_eq_bind, Option.bind_some, hk]

/-- A `select` shows the value of the first of the options that it shows. -/
theorem value?_of_select {rest : List NodeRef} (hk : d.kind? r = some .select) (hs : d.selectedOptions r = o :: rest)
    (ho : d.kind? o = some .selectOption) : d.value? r = d.value? o := by
  obtain ⟨e, he, hkind⟩ := Option.map_eq_some_iff.mp hk
  obtain ⟨e', he', hkind'⟩ := Option.map_eq_some_iff.mp ho
  rw [value?_of_option he' hkind', value?, he]
  simp only [Option.bind_eq_bind, Option.bind_some, hkind, hs, List.head?_cons, he', Option.map_some, Option.getD_some]

/-! ## Documents that differ in their elements -/

/-- Each element is recast by a function of its reference; nothing else has changed. -/
structure Recasts (g : NodeRef → Element → Element) (d d' : Document) : Prop where
  distinct : d'.store.Distinct
  descendants (x : NodeRef) : d'.store.descendants x = d.store.descendants x
  textContent (x : NodeRef) : d'.store.textContent x = d.store.textContent x
  element? (x : NodeRef) : d'.store.element? x = (d.store.element? x).map (g x)

theorem recasts_self (h : d.store.Distinct) : Recasts (fun _ e => e) d d where
  distinct := h
  descendants _ := rfl
  textContent _ := rfl
  element? _ := Option.map_id'.symm

theorem Recasts.trans (h : Recasts g d d') (h' : Recasts g' d' d'') : Recasts (fun x e => g' x (g x e)) d d'' where
  distinct := h'.distinct
  descendants x := (h'.descendants x).trans (h.descendants x)
  textContent x := (h'.textContent x).trans (h.textContent x)
  element? x := by
    rw [h'.element?, h.element?, Option.map_map]
    rfl

/-- A live element is recast, and the others stay. -/
theorem recasts_updateElement (h : d.store.Distinct) (hr : d.store.element? r = some e) (f : Element → Element) :
    ∃ d', onStore (Store.updateElement r f) d = .ok () d' ∧ Recasts (fun x e => if x = r then f e else e) d d' := by
  refine ⟨_, onStore_of_ok (Store.updateElement_of_get? (Store.element?_eq_some_iff.mp hr) f), ?_, ?_, ?_, ?_⟩
  · change (Store.refs _).Nodup
    rw [Store.refs_setData]
    exact h
  · exact fun x => Store.descendants_setData _ _ _ _
  · exact fun x => h.textContent_setData hr _ x
  · intro x
    rw [Store.element?_setData hr]
    split
    · rename_i hx
      rw [hx, hr]
      rfl
    · exact Option.map_id'.symm

theorem recasts_setAttribute {name : String} (h : d.store.Distinct) (hr : d.store.element? r = some e)
    (hname : validateName name = .ok ()) (value : String) :
    ∃ d', onStore (Store.setAttribute r name value) d = .ok () d' ∧
      Recasts (fun x e => if x = r then e.setAttr (.plain (Store.attributeName e name) value) else e) d d' := by
  unfold Store.setAttribute
  rw [hname]
  exact recasts_updateElement h hr _

/-! ### What the state of controls does not change -/

section Controls

variable (hg : ∀ x e, ∃ c, g x e = { e with control := c })

include hg

theorem Recasts.kind? (h : Recasts g d d') (x : NodeRef) : d'.kind? x = d.kind? x := by
  rw [Document.kind?, h.element?, Option.map_map]
  refine congrArg (Option.map · _) (funext fun e => ?_)
  obtain ⟨c, hc⟩ := hg x e
  rw [Function.comp_apply, hc]
  rfl

theorem Recasts.attribute? (h : Recasts g d d') (x : NodeRef) (name : String) :
    d'.store.attribute? x name = d.store.attribute? x name := by
  rw [Store.attribute?, h.element?, Option.bind_map]
  refine congrArg (Option.bind _) (funext fun e => ?_)
  obtain ⟨c, hc⟩ := hg x e
  rw [Function.comp_apply, hc]
  rfl

theorem Recasts.value?_option (h : Recasts g d d') (hk : d.kind? o = some .selectOption) :
    d'.value? o = d.value? o := by
  obtain ⟨e, he, hkind⟩ := Option.map_eq_some_iff.mp hk
  obtain ⟨c, hc⟩ := hg o e
  have he' : d'.store.element? o = some { e with control := c } := by
    rw [h.element?, he, Option.map_some, hc]
  rw [value?_of_option he hkind, value?_of_option he' hkind, optionValue, optionValue, h.textContent]
  rfl

end Controls

/-! ## Marks -/

/-- The option that is marked: the first one with the value, unless one in front was. -/
def choice? (d : Document) (value : String) (matched : Bool) (options : List NodeRef) : Option NodeRef :=
  if matched then none else options.find? (d.value? · == some value)

theorem choice?_cons (d : Document) (value : String) (matched : Bool) (o : NodeRef) (rest : List NodeRef) :
    let hit := !matched && d.value? o == some value
    d.choice? value matched (o :: rest) = if hit then some o else d.choice? value (matched || hit) rest := by
  cases matched <;> cases hv : d.value? o == some value <;> simp [choice?, hv]

/-- Marks that were made do not change which option is chosen. -/
theorem Recasts.choice? (hg : ∀ x e, ∃ c, g x e = { e with control := c }) (h : Recasts g d d')
    (hk : ∀ o ∈ options, d.kind? o = some .selectOption) (value : String) (matched : Bool) :
    d'.choice? value matched options = d.choice? value matched options := by
  unfold Document.choice?
  rw [List.find?_congr fun o ho => congrArg (· == some value) (h.value?_option hg (hk o ho))]

theorem mem_of_choice? {matched : Bool} (h : d.choice? value matched options = some o) : o ∈ options := by
  unfold choice? at h
  split at h
  · cases h
  · exact List.mem_of_find?_eq_some h

/-- Marks one of the options as selected and the others as not. -/
def marks (options : List NodeRef) (chosen : Option NodeRef) (x : NodeRef) (e : Element) : Element :=
  if x ∈ options then e.mark (decide (chosen = some x)) else e

theorem exists_control_marks (options : List NodeRef) (chosen : Option NodeRef) (x : NodeRef) (e : Element) :
    ∃ c, marks options chosen x e = { e with control := c } := by
  unfold marks
  split
  · exact ⟨_, rfl⟩
  · exact ⟨e.control, rfl⟩

theorem marks_singleton (o : NodeRef) (hit : Bool) :
    marks [o] (if hit then some o else none) = fun x e => if x = o then e.mark hit else e := by
  funext x e
  by_cases hx : x = o
  · cases hit <;> simp [marks, hx]
  · simp [marks, hx]

/-- The first option is marked, and then the others, of which none is chosen if the first was. -/
theorem marks_cons {rest : List NodeRef} {hit : Bool} {chosen : Option NodeRef} (hnot : o ∉ rest)
    (hnone : hit = true → chosen = none) (hmem : ∀ x ∈ chosen, x ∈ rest) (x : NodeRef) (e : Element) :
    marks rest chosen x (marks [o] (if hit then some o else none) x e) =
      marks (o :: rest) (if hit then some o else chosen) x e := by
  by_cases hx : x = o
  · subst hx
    have hother : chosen ≠ some x := fun he => hnot (hmem x he)
    cases hit <;> simp [marks, hnot, hother]
  · have hne : ¬ o = x := Ne.symm hx
    cases hit <;> simp [marks, hx, hne, hnone]

/-- **The options are marked one after the other.** No mark changes the value of an option that comes later. -/
theorem select_recasts (h : d.store.Distinct) (hk : ∀ o ∈ options, d.kind? o = some .selectOption)
    (hnodup : options.Nodup) (value : String) (matched : Bool) :
    ∃ d', select value options matched d = .ok () d' ∧
      Recasts (marks options (d.choice? value matched options)) d d' := by
  induction options generalizing d matched with
  | nil => exact ⟨d, rfl, recasts_self h⟩
  | cons o rest ih =>
    obtain ⟨ho, hrest⟩ := List.forall_mem_cons.mp hk
    obtain ⟨hnot, hnodup⟩ := List.nodup_cons.mp hnodup
    obtain ⟨e, he, -⟩ := Option.map_eq_some_iff.mp ho
    let hit := !matched && d.value? o == some value
    -- The round writes the mark of the first option; the values of the others are still those of `d`.
    obtain ⟨d₁, hrun₁, h₁⟩ := recasts_updateElement h he (·.mark hit)
    rw [← marks_singleton] at h₁
    have hcontrol := exists_control_marks [o] (if hit then some o else none)
    obtain ⟨d₂, hrun₂, h₂⟩ :=
      ih h₁.distinct (fun x hx => (h₁.kind? hcontrol x).trans (hrest x hx)) hnodup (matched || hit)
    refine ⟨d₂, ?_, ?_⟩
    · unfold select
      rw [get_bind_apply]
      exact (bind_of_ok hrun₁).trans hrun₂
    · have hmarks : marks (o :: rest) (d.choice? value matched (o :: rest)) = fun x e =>
          marks rest (d₁.choice? value (matched || hit) rest) x (marks [o] (if hit then some o else none) x e) := by
        funext x e
        rw [h₁.choice? hcontrol hrest, choice?_cons]
        exact (marks_cons hnot (fun hhit => by rw [hhit, Bool.or_true]; rfl) (fun _ => mem_of_choice?) x e).symm
      rw [hmarks]
      exact h₁.trans h₂

/-! ## Choices -/

/-- The options below a node, in tree order. -/
def choices (d : Document) (r : NodeRef) : List NodeRef :=
  (d.store.below r).filter fun o => d.kind? o == some .selectOption

theorem kind?_of_mem_choices (h : o ∈ d.choices r) : d.kind? o = some .selectOption :=
  beq_iff_eq.mp (List.mem_filter.mp h).2

theorem nodup_choices (h : d.store.Distinct) (r : NodeRef) : (d.choices r).Nodup :=
  ((h.nodup_descendants r).sublist (List.tail_sublist _)).filter _

/-- A `select` is no option, so its options are below it. -/
theorem options_eq_choices (hk : d.kind? r = some .select) : d.options r = d.choices r := by
  unfold options choices
  cases ht : d.store.tree? r with
  | none => simp [Store.below, Store.descendants, ht]
  | some t =>
    have href : t.1.ref = r := (Store.mem_trees_of_tree? ht).2
    rw [Store.below_of_tree? ht, Store.descendants_of_tree? ht, Forest.labels_mk, List.map_cons, href,
      List.filter_cons_of_neg (by simp [hk])]

theorem Recasts.choices (hg : ∀ x e, ∃ c, g x e = { e with control := c }) (h : Recasts g d d') (r : NodeRef) :
    d'.choices r = d.choices r := by
  unfold Document.choices Store.below
  rw [h.descendants]
  exact List.filter_congr fun o _ => by rw [h.kind? hg]

/-- **A `select` of a single choice shows one option, unless all are disabled and none is marked.** -/
theorem length_selectedOptions (hk : d.kind? r = some .select) (hm : d.store.attribute? r "multiple" = none) :
    (d.selectedOptions r).length ≤ 1 ∧ ((d.selectedOptions r).length = 1 ↔
      ∃ o ∈ d.choices r, d.isSelected o = true ∨ d.store.attribute? o "disabled" = none) := by
  unfold selectedOptions
  simp only [options_eq_choices hk, hm, Option.isSome_none, Bool.false_eq_true, if_false]
  cases hlast : ((d.choices r).filter d.isSelected).getLast? with
  | some o =>
    have ho := List.mem_filter.mp (List.mem_of_getLast? hlast)
    exact ⟨le_rfl, iff_of_true rfl ⟨o, ho.1, Or.inl ho.2⟩⟩
  | none =>
    have hnone : ∀ o ∈ d.choices r, ¬ d.isSelected o = true :=
      List.filter_eq_nil_iff.mp (List.getLast?_eq_none_iff.mp hlast)
    dsimp only
    cases hfind : (d.choices r).find? fun o => (d.store.attribute? o "disabled").isNone with
    | some o =>
      have ho := List.find?_some hfind
      exact ⟨le_rfl, iff_of_true rfl ⟨o, List.mem_of_find?_eq_some hfind, Or.inr (Option.isNone_iff_eq_none.mp ho)⟩⟩
    | none =>
      refine ⟨Nat.zero_le 1, iff_of_false Nat.zero_ne_one ?_⟩
      rintro ⟨o, ho, h | h⟩
      · exact hnone o ho h
      · exact List.find?_eq_none.mp hfind o ho (Option.isNone_iff_eq_none.mpr h)

/-- What is read from a `select` after a value was assigned to it. -/
structure Chooses (d : Document) (r : NodeRef) (value : String) (d' : Document) : Prop where
  choices : d'.choices r = d.choices r
  values : ∀ o ∈ d.choices r, d'.value? o = d.value? o
  attributes : ∀ x name, d'.store.attribute? x name = d.store.attribute? x name
  found : (∃ o ∈ d.choices r, d.value? o = some value) →
    ∃ o, (d.choices r).find? (d.value? · == some value) = some o ∧ d'.selectedOptions r = [o] ∧
      d'.value? r = some value
  missed : (∀ o ∈ d.choices r, d.value? o ≠ some value) →
    (∀ o ∈ d.choices r, d'.isSelected o = false) ∧
      d'.selectedOptions r = if (d.store.attribute? r "multiple").isSome then []
        else ((d.choices r).find? fun o => (d.store.attribute? o "disabled").isNone).toList

/-- Of the options, the one that was chosen is marked. -/
theorem Recasts.isSelected {chosen : Option NodeRef} (h : Recasts (marks options chosen) d d')
    (hk : d.kind? o = some .selectOption) (ho : o ∈ options) : d'.isSelected o = decide (chosen = some o) := by
  obtain ⟨e, he, -⟩ := Option.map_eq_some_iff.mp hk
  unfold Document.isSelected
  rw [h.element?, he, Option.map_some, Option.any_some, marks, if_pos ho]
  rfl

/-- **What is shown after one option was chosen, or none.** -/
theorem Recasts.selectedOptions {chosen : Option NodeRef} (h : d.store.Distinct) (hk : d.kind? r = some .select)
    (hm : Recasts (marks (d.choices r) chosen) d d') (hchosen : ∀ o ∈ chosen, o ∈ d.choices r) :
    d'.selectedOptions r = if (d.store.attribute? r "multiple").isSome then chosen.toList
      else (chosen.or ((d.choices r).find? fun o => (d.store.attribute? o "disabled").isNone)).toList := by
  have hcontrol := exists_control_marks (d.choices r) chosen
  have hchoices : d'.options r = d.choices r := by
    rw [options_eq_choices ((hm.kind? hcontrol r).trans hk), hm.choices hcontrol]
  have hmarked : (d.choices r).filter d'.isSelected = chosen.toList := by
    rw [List.filter_congr fun o ho => hm.isSelected (kind?_of_mem_choices ho) ho]
    cases chosen with
    | none => simp
    | some o =>
      calc (d.choices r).filter (fun x => decide (some o = some x))
          = (d.choices r).filter (· == o) := List.filter_congr fun x _ => by
            rw [Bool.eq_iff_iff, decide_eq_true_iff, beq_iff_eq, Option.some_inj, eq_comm]
        _ = List.replicate ((d.choices r).count o) o := List.filter_beq o
        _ = [o] := by rw [List.count_eq_one_of_mem (nodup_choices h r) (hchosen o rfl), List.replicate_one]
  unfold Document.selectedOptions
  simp only [hchoices, hmarked, hm.attribute? hcontrol]
  cases chosen <;> rfl

/-- The option that a mark was put on is the one that is shown. -/
theorem Recasts.chooses (h : d.store.Distinct) (hk : d.kind? r = some .select)
    (hm : Recasts (marks (d.choices r) (d.choice? value false (d.choices r))) d d') : Chooses d r value d' := by
  have hcontrol := exists_control_marks (d.choices r) (d.choice? value false (d.choices r))
  have hshown := hm.selectedOptions h hk fun _ => mem_of_choice?
  have hvalues : ∀ o ∈ d.choices r, d'.value? o = d.value? o := fun o ho =>
    hm.value?_option hcontrol (kind?_of_mem_choices ho)
  refine ⟨hm.choices hcontrol r, hvalues, hm.attribute? hcontrol, ?_, ?_⟩
  · rintro ⟨o', ho', hv'⟩
    obtain ⟨o, hfind⟩ := Option.isSome_iff_exists.mp
      (List.find?_isSome.mpr ⟨o', ho', beq_iff_eq.mpr hv'⟩ : ((d.choices r).find? (d.value? · == some value)).isSome)
    have ho := List.mem_of_find?_eq_some hfind
    have hchosen : d.choice? value false (d.choices r) = some o := hfind
    have hone : d'.selectedOptions r = [o] := by
      rw [hshown, hchosen, Option.some_or]
      exact ite_self _
    refine ⟨o, hfind, hone, ?_⟩
    rw [value?_of_select ((hm.kind? hcontrol r).trans hk) hone ((hm.kind? hcontrol o).trans (kind?_of_mem_choices ho)),
      hvalues o ho]
    simpa using List.find?_some hfind
  · intro hmiss
    have hchosen : d.choice? value false (d.choices r) = none :=
      List.find?_eq_none.mpr fun o ho hv => hmiss o ho (beq_iff_eq.mp hv)
    rw [hchosen] at hm hshown
    exact ⟨fun o ho => hm.isSelected (kind?_of_mem_choices ho) ho, hshown⟩

/-! ## Assigned values -/

/-- What is read from an element after a value was assigned to it. -/
def Reads (d : Document) (r : NodeRef) (value : String) (d' : Document) : Prop :=
  ∃ e, d.store.element? r = some e ∧
    if e.kind = .select then Chooses d r value d' else d'.value? r = some value

theorem reads_of_value? (he : d.store.element? r = some e) (hk : e.kind ≠ .select) (hv : d'.value? r = some value) :
    Reads d r value d' :=
  ⟨e, he, by rwa [if_neg hk]⟩

/-- The state of an input or a text area is written. -/
theorem ends_control_reads (h : d.store.Distinct) (he : d.store.element? r = some e)
    (hk : e.kind = .input ∨ e.kind = .textArea) {E : Document → Prop} :
    Ends (onStore (Store.updateElement r fun e => { e with control := { e.control with value := some value } })) d
      (fun _ d' => Reads d r value d') E := by
  obtain ⟨d', hrun, hd'⟩ := recasts_updateElement h he
    fun e => { e with control := { e.control with value := some value } }
  have he' := hd'.element? r
  rw [he, Option.map_some, if_pos rfl] at he'
  refine Ends.of_eq hrun (reads_of_value? he (fun hs => ?_) (value?_of_control he' hk rfl))
  simp [hs] at hk

/-- The attribute of another element that is no `select` is written. -/
theorem ends_attribute_reads (h : d.store.Distinct) (he : d.store.element? r = some e)
    (hk : e.kind = .selectOption ∨ e.kind = .form ∨ e.kind = .generic) {E : Document → Prop} :
    Ends (onStore (Store.setAttribute r "value" value)) d (fun _ d' => Reads d r value d') E := by
  obtain ⟨d', hrun, hd'⟩ := recasts_setAttribute h he (by decide +kernel : validateName "value" = .ok ()) value
  have hname : Store.attributeName e "value" = "value" := by
    have hlower : "value".toLower = "value" := by decide +kernel
    rw [Store.attributeName, hlower, ite_self]
  have he' := hd'.element? r
  rw [he, Option.map_some, if_pos rfl, hname] at he'
  refine Ends.of_eq hrun (reads_of_value? he (fun hs => ?_) (value?_of_attr he' hk (Element.attr?_setAttr e _ value)))
  simp [hs] at hk

theorem ends_select_reads (h : d.store.Distinct) (he : d.store.element? r = some e) (hk : e.kind = .select)
    {E : Document → Prop} : Ends (select value (d.options r) false) d (fun _ d' => Reads d r value d') E := by
  have hkind : d.kind? r = some .select := by rw [Document.kind?, he, Option.map_some, hk]
  rw [options_eq_choices hkind]
  obtain ⟨d', hrun, hd'⟩ := select_recasts h (fun _ => kind?_of_mem_choices) (nodup_choices h r) value false
  exact Ends.of_eq hrun ⟨e, he, by rw [if_pos hk]; exact hd'.chooses h hkind⟩

/-- **An assigned value is read back.** The assignment fails only if the node is no element. -/
theorem ends_setValue_reads (h : d.store.Distinct) (r : NodeRef) (value : String) :
    Ends (setValue r value) d (fun _ d' => Reads d r value d') fun d' => d' = d ∧ d.store.element? r = none := by
  have hcheck : Ends (onStore (Store.requireElement r)) d (fun e d' => d' = d ∧ d.store.element? r = some e)
      fun d' => d' = d ∧ d.store.element? r = none :=
    (ends_onStore_with (Store.ends_requireElement_element? d.store r)).mono
      (fun _ _ ⟨_, hd, hs, he⟩ => ⟨by rw [hd, hs], he⟩) fun _ ⟨_, hd, hs, he⟩ => ⟨by rw [hd, hs], he⟩
  unfold setValue
  refine hcheck.bind ?_
  rintro e _ ⟨rfl, he⟩
  cases hk : e.kind with
  | input => exact ends_control_reads h he (Or.inl hk)
  | textArea => exact ends_control_reads h he (Or.inr hk)
  | select => exact Ends.get_bind (ends_select_reads h he hk)
  | selectOption => exact ends_attribute_reads h he (Or.inl hk)
  | form => exact ends_attribute_reads h he (Or.inr (Or.inl hk))
  | generic => exact ends_attribute_reads h he (Or.inr (Or.inr hk))

/-- **What is assigned is read, and a `select` of a single choice shows at most one option**, namely one just if one
is marked or not disabled. -/
theorem setValue_reads (h : d.store.Distinct) (r : NodeRef) (value : String) :
    Ends (setValue r value) d (fun _ d' => Reads d r value d') (fun d' => d' = d ∧ d.store.element? r = none) ∧
      (d.kind? r = some .select → d.store.attribute? r "multiple" = none →
        (d.selectedOptions r).length ≤ 1 ∧ ((d.selectedOptions r).length = 1 ↔
          ∃ o ∈ d.choices r, d.isSelected o = true ∨ d.store.attribute? o "disabled" = none)) :=
  ⟨ends_setValue_reads h r value, length_selectedOptions⟩

/-- A `select` that showed its first option shows the first one with the assigned value, though it is disabled. -/
theorem exists_setValue_reads : ∃ (d : Document) (r o : NodeRef), d.store.Distinct ∧
    d.kind? r = some .select ∧ d.store.attribute? r "multiple" = none ∧ d.value? r = some "a b" ∧
    (d.selectedOptions r).length ≤ 1 ∧
    ∃ d', setValue r "b" d = .ok () d' ∧ Chooses d r "b" d' ∧ d'.selectedOptions r = [o] ∧ d'.value? r = some "b" := by
  let option (attributes : List Attribute) : NodeData := .element ⟨"option", none, none, attributes, [], {}⟩
  obtain ⟨s, hs, hk, hm, hv, hrun⟩ : ∃ s : Store, s.WellFormed ∧
      ({ store := s } : Document).kind? (.cell 1 0) = some .select ∧ s.attribute? (.cell 1 0) "multiple" = none ∧
      ({ store := s } : Document).value? (.cell 1 0) = some "a b" ∧
      (final? (setValue (.cell 1 0) "b") { store := s }).any
        (fun d' => d'.selectedOptions (.cell 1 0) == [.cell 3 0] && d'.value? (.cell 1 0) == some "b") = true :=
    ⟨_, Store.wellFormed_new.foldl_apply [.insertNode (.element ⟨"select", none, none, [], [], {}⟩) rfl,
      .insertNode (option []) rfl, .insertNode (option [.plain "value" "b", .plain "disabled" ""]) rfl,
      .insertNode (option []) rfl, .appendChild (.cell 1 0) (.cell 2 0), .appendChild (.cell 1 0) (.cell 3 0),
      .appendChild (.cell 1 0) (.cell 4 0), .setTextContent (.cell 2 0) " a  b ", .setTextContent (.cell 4 0) "b"],
      by decide +kernel, by decide +kernel, by decide +kernel, by decide +kernel⟩
  obtain ⟨hends, hone⟩ := setValue_reads (d := { store := s }) hs.distinct (.cell 1 0) "b"
  obtain ⟨⟨⟩, d', hd', hshown⟩ := exists_of_final? hrun
  rw [Bool.and_eq_true, beq_iff_eq, beq_iff_eq] at hshown
  obtain ⟨e, he, hreads⟩ := hends.ok hd'
  have hselect : e.kind = .select := by simpa [Document.kind?, he] using hk
  rw [if_pos hselect] at hreads
  exact ⟨_, _, _, hs.distinct, hk, hm, hv, (hone hk hm).1, d', hd', hreads, hshown⟩

end Document

end DomHost
