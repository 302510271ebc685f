import DomHost.Document.Walk
import DomHost.Event.FieldMap
import DomHost.Proofs.Document.Values
import Mathlib.Data.String.Basic

/-!
# Fields of a form

The entry list of a form is put together from what each element below it contributes, in tree order. Gathered by name
it keeps every value, each name once and with its values in the order in which they came.

* `FieldMap.alter_map`, **`FieldMap.gathers_ofEntries`**: entries gathered by name;
* `Document.collectNode_eq`, **`Document.formDataByWalk_eq`**: the walk appends what each node contributes;
* `Document.Submits`, `Document.Contributes`, **`Document.contributes_contribution`**: what a node contributes;
* **`Document.fieldMap_gathers`**: the fields of a form.
-/

namespace DomHost

/-! ## Entries by name -/

namespace FormData

theorem getAll_append (data : FormData) (name n : String) (v : FormEntry) :
    (data.append name v).getAll n = data.getAll n ++ if n = name then [v] else [] := by
  by_cases h : n = name
  · simp [getAll, append, h]
  · simp [getAll, append, h, Ne.symm h]

theorem getAll_eq_nil {data : FormData} {n : String} (h : n ∉ data.entries.map (·.1)) : data.getAll n = [] := by
  have hnone : data.entries.filter (·.1 == n) = [] :=
    List.filter_eq_nil_iff.mpr fun entry hentry he => h (List.mem_map.mpr ⟨entry, hentry, beq_iff_eq.mp he⟩)
  rw [getAll, hnone, List.map_nil]

end FormData

namespace FieldMap

variable {name : String} {names : List String} {F : String → List FormValue}

/-- The values of other names stay. -/
theorem map_of_forall_ne (h : ∀ n ∈ names, n ≠ name) (g : List FormValue → List FormValue) :
    names.map (fun n => (n, if n = name then g (F n) else F n)) = names.map fun n => (n, F n) :=
  List.map_congr_left fun n hn => by rw [if_neg (h n hn)]

/-- The values of a name are changed where the name stands, or where it belongs if it is new. -/
theorem alter_map (h : names.Pairwise (· < ·)) (hF : name ∉ names → F name = [])
    (g : List FormValue → List FormValue) :
    ∃ names' : List String, names'.Pairwise (· < ·) ∧ (∀ n, n ∈ names' ↔ n = name ∨ n ∈ names) ∧
      alter name g (names.map fun n => (n, F n)) = names'.map fun n => (n, if n = name then g (F n) else F n) := by
  induction names with
  | nil => exact ⟨[name], List.pairwise_singleton _ _, fun n => by simp, by simp [alter, hF]⟩
  | cons n rest ih =>
    obtain ⟨hfirst, hrest⟩ := List.pairwise_cons.mp h
    rw [List.map_cons, alter]
    split
    · -- The name is new, and all others come behind it.
      rename_i hlt
      have hbefore : ∀ x ∈ n :: rest, name < x := by
        intro x hx
        rcases List.mem_cons.mp hx with rfl | hx
        · exact hlt
        · exact hlt.trans (hfirst x hx)
      have hnew : ∀ x ∈ n :: rest, x ≠ name := fun x hx => (hbefore x hx).ne'
      refine ⟨name :: n :: rest, List.pairwise_cons.mpr ⟨hbefore, h⟩, fun x => List.mem_cons, ?_⟩
      rw [List.map_cons, if_pos rfl, hF fun hmem => hnew name hmem rfl, map_of_forall_ne hnew, List.map_cons]
    · rename_i hle
      split
      · rename_i heq
        subst heq
        refine ⟨n :: rest, h, fun x => by simp, ?_⟩
        rw [List.map_cons, if_pos rfl, map_of_forall_ne fun x hx => (hfirst x hx).ne']
      · -- The name belongs behind the first one.
        rename_i hne
        obtain ⟨names', hsorted, hmem, hmap⟩ := ih hrest fun hnot => hF (by simp [hnot, Ne.symm hne])
        have hafter : ∀ x ∈ names', n < x := by
          intro x hx
          rcases (hmem x).mp hx with rfl | hx
          · exact lt_of_le_of_ne (not_lt.mp hle) hne
          · exact hfirst x hx
        refine ⟨n :: names', List.pairwise_cons.mpr ⟨hafter, hsorted⟩, fun x => ?_, ?_⟩
        · rw [List.mem_cons, hmem, List.mem_cons]
          exact or_left_comm
        · rw [hmap, List.map_cons, if_neg hne]

/-- The names of a list of entries, each once and in order, with all values that the list has for them. -/
structure Gathers (data : FormData) (m : FieldMap) : Prop where
  sorted : (m.fields.map (·.1)).Pairwise (· < ·)
  names (n : String) : n ∈ m.fields.map (·.1) ↔ n ∈ data.entries.map (·.1)
  values : ∀ f ∈ m.fields, f.2 = (data.getAll f.1).map .ofEntry

theorem gathers_iff {data : FormData} {m : FieldMap} : Gathers data m ↔ ∃ names : List String,
    names.Pairwise (· < ·) ∧ (∀ n, n ∈ names ↔ n ∈ data.entries.map (·.1)) ∧
      m.fields = names.map fun n => (n, (data.getAll n).map .ofEntry) := by
  constructor
  · intro h
    refine ⟨_, h.sorted, h.names, ?_⟩
    rw [List.map_map]
    exact (List.map_id _).symm.trans (List.map_congr_left fun f hf => Prod.ext rfl (h.values f hf))
  · rintro ⟨names, hsorted, hmem, hfields⟩
    have hnames : m.fields.map (·.1) = names := by
      rw [hfields, List.map_map]
      exact List.map_id names
    refine ⟨hnames ▸ hsorted, fun n => hnames ▸ hmem n, fun f hf => ?_⟩
    rw [hfields] at hf
    obtain ⟨n, -, rfl⟩ := List.mem_map.mp hf
    rfl

/-- One entry more is gathered. -/
theorem Gathers.add {data : FormData} {m : FieldMap} (h : Gathers data m) (name : String) (v : FormEntry) :
    Gathers (data.append name v) (m.add name (.ofEntry v)) := by
  obtain ⟨names, hsorted, hmem, hfields⟩ := gathers_iff.mp h
  have hnew : name ∉ names → (data.getAll name).map FormValue.ofEntry = [] := fun hnot => by
    rw [FormData.getAll_eq_nil fun hin => hnot ((hmem name).mpr hin), List.map_nil]
  obtain ⟨names', hsorted', hmem', halter⟩ :=
    alter_map (F := fun n => (data.getAll n).map .ofEntry) hsorted hnew (· ++ [.ofEntry v])
  refine gathers_iff.mpr ⟨names', hsorted', fun n => ?_, ?_⟩
  · rw [hmem', hmem, FormData.append, List.map_append, List.mem_append, List.map_singleton, List.mem_singleton]
    exact or_comm
  · rw [FieldMap.add, hfields]
    refine halter.trans (List.map_congr_left fun n _ => ?_)
    rw [FormData.getAll_append, List.map_append]
    split
    · rfl
    · rw [List.map_nil, List.append_nil]

/-- **Gathered by name, an entry list keeps every value.** -/
theorem gathers_ofEntries (entries : List (String × FormEntry)) : Gathers ⟨entries⟩ (ofEntries entries) := by
  induction entries using List.reverseRecOn with
  | nil => exact gathers_iff.mpr ⟨[], List.Pairwise.nil, fun _ => Iff.rfl, rfl⟩
  | append_singleton entries entry ih =>
    have hadd := ih.add entry.1 entry.2
    rw [ofEntries, List.foldl_append]
    exact hadd

end FieldMap

namespace Document

variable {d : Document} {r form : NodeRef} {e : Element} {name : String}

/-! ## The walk -/

/-- Values of one name that are appended one after the other. -/
theorem foldl_append_eq {α : Type} (f : α → FormEntry) (l : List α) (data : FormData) (name : String) :
    l.foldl (fun data a => data.append name (f a)) data = ⟨data.entries ++ (l.map f).map (name, ·)⟩ := by
  induction l generalizing data with
  | nil => simp
  | cons a rest ih =>
    rw [List.foldl_cons, ih]
    simp [FormData.append]

theorem collectControl_eq (data : FormData) (r : NodeRef) (e : Element) (name : String) :
    d.collectControl data r e name = ⟨data.entries ++ (d.controlEntries r e).map (name, ·)⟩ := by
  unfold collectControl controlEntries
  cases e.kind with
  | select => exact foldl_append_eq _ _ data name
  | input =>
    dsimp only
    generalize d.inputType r = type
    split
    · simp
    · simp
    · simp
    · simp
    · cases d.checked r <;> simp [FormData.append]
    · cases d.checked r <;> simp [FormData.append]
    · cases hfiles : d.files r with
      | nil => simp [FormData.append]
      | cons f rest => exact foldl_append_eq FormEntry.file (f :: rest) data name
    · grind [FormData.append]
  | _ => rfl

theorem collectNode_eq (data : FormData) (r : NodeRef) :
    d.collectNode data r = ⟨data.entries ++ d.contribution r⟩ := by
  unfold collectNode contribution
  cases d.store.element? r with
  | none => simp
  | some e =>
    dsimp only
    split
    · simp
    · cases e.attr? "name" with
      | none => simp
      | some name =>
        dsimp only
        split
        · simp
        · exact collectControl_eq data r e name

/-- **The walk appends what each node contributes.** -/
theorem formDataByWalk_eq (d : Document) (form : NodeRef) : d.formDataByWalk form = d.formData form := by
  have hwalk : ∀ (rs : List NodeRef) (data : FormData),
      rs.foldl d.collectNode data = ⟨data.entries ++ rs.flatMap d.contribution⟩ := by
    intro rs
    induction rs with
    | nil => simp
    | cons r rest ih => simp [ih, collectNode_eq]
  unfold formDataByWalk formData
  rw [hwalk]
  rfl

/-! ## Contributions -/

/-- An element is a control that is not disabled and has a name. -/
structure Submits (d : Document) (r : NodeRef) (e : Element) (name : String) : Prop where
  element : d.store.element? r = some e
  kind : e.kind = .input ∨ e.kind = .select ∨ e.kind = .textArea
  enabled : e.attr? "disabled" = none
  named : e.attr? "name" = some name
  nonempty : name ≠ ""

/-- An entry holds the value of a control or option. -/
def Holds (d : Document) (r : NodeRef) (entry : FormEntry) : Prop := ∃ v, d.value? r = some v ∧ entry = .text v

/-- The entries of a control. -/
inductive Enters (d : Document) (r : NodeRef) : ElementKind → List FormEntry → Prop
  | select {entries : List FormEntry} (hv : List.Forall₂ d.Holds (d.selectedOptions r) entries) :
      Enters d r .select entries
  | button (ht : d.inputType r ∈ ["submit", "button", "reset", "image"]) : Enters d r .input []
  | checked {entry : FormEntry} (ht : d.inputType r ∈ ["checkbox", "radio"]) (hc : d.checked r = true)
      (hv : d.Holds r entry) : Enters d r .input [entry]
  | unchecked (ht : d.inputType r ∈ ["checkbox", "radio"]) (hc : d.checked r = false) : Enters d r .input []
  | files (ht : d.inputType r = "file") (hf : d.files r ≠ []) : Enters d r .input ((d.files r).map .file)
  | unpicked (ht : d.inputType r = "file") (hf : d.files r = []) : Enters d r .input [.file .unpicked]
  | input {entry : FormEntry}
      (ht : d.inputType r ∉ ["submit", "button", "reset", "image", "checkbox", "radio", "file"])
      (hv : d.Holds r entry) : Enters d r .input [entry]
  | textArea {entry : FormEntry} (hv : d.Holds r entry) : Enters d r .textArea [entry]

/-- What an element contributes to the entry list of a form. -/
inductive Contributes (d : Document) (r : NodeRef) : List (String × FormEntry) → Prop
  | passed (h : ∀ e name, ¬ d.Submits r e name) : Contributes d r []
  | submitted {e : Element} {name : String} {entries : List FormEntry} (h : d.Submits r e name)
      (he : d.Enters r e.kind entries) : Contributes d r (entries.map (name, ·))

/-- A control has a value, and so has an option. -/
theorem isSome_value? (he : d.store.element? r = some e) (hk : e.kind ≠ .form) (hk' : e.kind ≠ .generic) :
    (d.value? r).isSome := by
  unfold value?
  rw [he]
  simp only [Option.bind_eq_bind, Option.bind_some]
  cases hkind : e.kind with
  | input => cases e.control.value <;> cases e.attr? "value" <;> rfl
  | textArea => rfl
  | select => rfl
  | selectOption => rfl
  | form => exact absurd hkind hk
  | generic => exact absurd hkind hk'

theorem holds_valueEntry (h : (d.value? r).isSome) : d.Holds r (d.valueEntry r) := by
  obtain ⟨v, hv⟩ := Option.isSome_iff_exists.mp h
  exact ⟨v, hv, by rw [valueEntry, hv]; rfl⟩

/-- What a node shows as selected are options. -/
theorem kind?_of_mem_selectedOptions {o : NodeRef} (h : o ∈ d.selectedOptions r) : d.kind? o = some .selectOption := by
  have hmem : o ∈ d.options r := by
    unfold selectedOptions at h
    dsimp only at h
    split at h
    · exact (List.mem_filter.mp h).1
    · split at h
      · rename_i last hlast
        rw [List.mem_singleton.mp h]
        exact (List.mem_filter.mp (List.mem_of_getLast? hlast)).1
      · exact List.mem_of_find?_eq_some (Option.mem_toList.mp h)
  exact beq_iff_eq.mp (List.mem_filter.mp hmem).2

theorem enters_input (hv : d.Holds r (d.valueEntry r)) (he : e.kind = .input) :
    d.Enters r .input (d.controlEntries r e) := by
  unfold controlEntries
  rw [he]
  dsimp only
  split
  · exact .button (List.contains_iff_mem.mp ‹_›)
  · rename_i hbutton
    split
    · rename_i hcheck
      cases hc : d.checked r with
      | false => exact .unchecked (List.contains_iff_mem.mp hcheck) hc
      | true => exact .checked (List.contains_iff_mem.mp hcheck) hc hv
    · rename_i hcheck
      split
      · rename_i hfile
        cases hf : d.files r with
        | nil => exact .unpicked hfile hf
        | cons f rest =>
          have hentries := Enters.files (d := d) (r := r) hfile (by simp [hf])
          rwa [hf] at hentries
      · rename_i hfile
        refine .input (fun ht => ?_) hv
        simp only [List.contains_iff_mem, List.mem_cons, List.not_mem_nil, or_false] at hbutton hcheck ht
        tauto

theorem enters_controlEntries (he : d.store.element? r = some e)
    (hk : e.kind = .input ∨ e.kind = .select ∨ e.kind = .textArea) : d.Enters r e.kind (d.controlEntries r e) := by
  have hvalue : d.Holds r (d.valueEntry r) := by
    refine holds_valueEntry (isSome_value? he (fun h => ?_) fun h => ?_) <;> simp [h] at hk
  rcases hk with hk | hk | hk
  · rw [hk]
    exact enters_input hvalue hk
  · unfold controlEntries
    rw [hk]
    refine .select (List.forall₂_map_right_iff.mpr (List.forall₂_same.mpr fun o ho => ?_))
    obtain ⟨e', he', hk'⟩ := Option.map_eq_some_iff.mp (kind?_of_mem_selectedOptions ho)
    exact holds_valueEntry (isSome_value? he' (by simp [hk']) (by simp [hk']))
  · unfold controlEntries
    rw [hk]
    exact .textArea hvalue

theorem isFormControl_iff {k : ElementKind} : k.isFormControl = true ↔ k = .input ∨ k = .select ∨ k = .textArea := by
  cases k <;> decide

theorem contribution_of_submits (h : d.Submits r e name) :
    d.contribution r = (d.controlEntries r e).map (name, ·) := by
  have hcontrol : e.kind.isFormControl = true := isFormControl_iff.mpr h.kind
  simp [contribution, h.element, hcontrol, Element.hasAttr, h.enabled, h.named, h.nonempty]

theorem exists_submits (h : d.contribution r ≠ []) : ∃ e name, d.Submits r e name := by
  unfold contribution at h
  cases he : d.store.element? r with
  | none => simp [he] at h
  | some e =>
    simp only [he] at h
    split at h
    · exact absurd rfl h
    · rename_i hcontrol
      simp only [Bool.or_eq_true, Bool.not_eq_true', not_or, Bool.not_eq_false, Bool.not_eq_true, Element.hasAttr,
        Option.isSome_eq_false_iff, Option.isNone_iff_eq_none, isFormControl_iff] at hcontrol
      cases hname : e.attr? "name" with
      | none => simp [hname] at h
      | some name =>
        simp only [hname] at h
        split at h
        · exact absurd rfl h
        · rename_i hnonempty
          exact ⟨e, name, he, hcontrol.1, hcontrol.2, hname, by simpa using hnonempty⟩

/-- **A node contributes what its kind, its type and its state say.** -/
theorem contributes_contribution (d : Document) (r : NodeRef) : d.Contributes r (d.contribution r) := by
  by_cases h : ∃ e name, d.Submits r e name
  · obtain ⟨e, name, h⟩ := h
    rw [contribution_of_submits h]
    exact .submitted h (enters_controlEntries h.element h.kind)
  · have hnone : d.contribution r = [] := by
      by_contra hne
      exact h (exists_submits hne)
    rw [hnone]
    exact .passed fun e name hs => h ⟨e, name, hs⟩

/-! ## The fields -/

/-- The elements below a node, in tree order. -/
def elementsBelow (d : Document) (r : NodeRef) : List NodeRef :=
  (d.store.below r).filter fun x => (d.store.element? x).isSome

/-- Other nodes contribute nothing. -/
theorem flatMap_elementsBelow (d : Document) (r : NodeRef) :
    (d.elementsBelow r).flatMap d.contribution = (d.store.below r).flatMap d.contribution := by
  unfold elementsBelow
  induction d.store.below r with
  | nil => rfl
  | cons x rest ih =>
    cases hx : d.store.element? x with
    | none => simp [hx, ih, contribution]
    | some e => simp [hx, ih]

/-- **The entry list of a form is what the elements below it contribute, one after the other**, made in one walk or
not, and gathered by name it keeps every value. -/
theorem fieldMap_gathers (h : d.kind? form = some .form) :
    ∃ data m, d.formData form = .ok data ∧ d.formDataByWalk form = .ok data ∧ d.fieldMap form = .ok m ∧
      m.Gathers data ∧ ∃ parts, List.Forall₂ d.Contributes (d.elementsBelow form) parts ∧
        data.entries = parts.flatten := by
  have hdata : d.formData form = .ok ⟨(d.elementsBelow form).flatMap d.contribution⟩ := by
    rw [formData, if_pos h, flatMap_elementsBelow]
    rfl
  have hfields : d.fieldMap form = .ok (.ofEntries ((d.elementsBelow form).flatMap d.contribution)) := by
    rw [fieldMap, hdata]
    rfl
  refine ⟨_, _, hdata, (formDataByWalk_eq d form).trans hdata, hfields, FieldMap.gathers_ofEntries _,
    (d.elementsBelow form).map d.contribution, ?_, rfl⟩
  exact List.forall₂_map_right_iff.mpr (List.forall₂_same.mpr fun x _ => contributes_contribution d x)

/-- Two controls share a name with another one between them, and one is disabled. -/
theorem exists_fieldMap_gathers : ∃ (d : Document) (form : NodeRef), d.kind? form = some .form ∧
    ∃ data m, d.formData form = .ok data ∧ d.formDataByWalk form = .ok data ∧ d.fieldMap form = .ok m ∧
      (m.Gathers data ∧ ∃ parts, List.Forall₂ d.Contributes (d.elementsBelow form) parts ∧
        data.entries = parts.flatten) ∧
      m.fields = [("Z", [.file (.ofFile .unpicked)]), ("a", [.text "1", .text "on"]),
        ("b", [.text "x", .text "y"])] := by
  let element (tag : String) (attributes : List Attribute) : NodeData := .element ⟨tag, none, none, attributes, [], {}⟩
  let option (value : String) : NodeData := element "option" [.plain "value" value, .plain "selected" ""]
  obtain ⟨d, hform, hfields⟩ : ∃ d : Document, d.kind? (.cell 1 0) = some .form ∧
      (d.fieldMap (.cell 1 0)).toOption.any (fun m => decide (m.fields = [("Z", [.file (.ofFile .unpicked)]),
        ("a", [.text "1", .text "on"]), ("b", [.text "x", .text "y"])])) = true :=
    ⟨{ store := [Store.Operation.insertNode (element "form" []) rfl,
        .insertNode (element "input" [.plain "name" "a", .plain "value" "1"]) rfl,
        .insertNode (element "select" [.plain "name" "b", .plain "multiple" ""]) rfl,
        .insertNode (option "x") rfl, .insertNode (option "y") rfl, .createText "and",
        .insertNode (element "input" [.plain "name" "a", .plain "type" "checkbox", .plain "checked" ""]) rfl,
        .insertNode (element "textarea" [.plain "name" "c", .plain "disabled" ""]) rfl,
        .insertNode (element "input" [.plain "name" "Z", .plain "type" "file"]) rfl,
        .appendChild (.cell 3 0) (.cell 4 0), .appendChild (.cell 3 0) (.cell 5 0),
        .appendChild (.cell 1 0) (.cell 2 0), .appendChild (.cell 1 0) (.cell 3 0),
        .appendChild (.cell 1 0) (.cell 6 0), .appendChild (.cell 1 0) (.cell 7 0),
        .appendChild (.cell 1 0) (.cell 8 0), .appendChild (.cell 1 0) (.cell 9 0)].foldl Store.Operation.apply .new },
      by decide +kernel, by decide +kernel⟩
  obtain ⟨data, m, hdata, hwalk, hm, hgathers⟩ := fieldMap_gathers hform
  rw [hm] at hfields
  exact ⟨d, _, hform, data, m, hdata, hwalk, hm, hgathers, of_decide_eq_true hfields⟩

end Document

end DomHost
