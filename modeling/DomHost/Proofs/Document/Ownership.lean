import DomHost.Event.Record
import DomHost.Proofs.Document.Fields
import DomHost.Proofs.Store.Elements
import DomHost.Proofs.Store.TextContent

/-!
# Owners of controls

The form around a node is the nearest one on the way up. The forms at or below a form so share the nodes among them,
and each control belongs to one of them. The entry list of the outer form does not ask for that: it also has what
the controls of the inner ones contribute.

* `Document.forms`, `Document.owned`, `Document.ownEntries`: the forms in a tree, and what belongs to a form;
* **`Document.enclosingForm?_eq_some_iff`**: the nearest form lies below all others on the way up;
* **`Document.perm_owned`**, `Document.perm_ownEntries`: the forms in a tree share its nodes and their entries;
* `Document.Owns`, **`Document.ownership_of_form`**: when a form submits what belongs to it and no more.
-/

namespace DomHost.Document

open Store

variable {d : Document} {f g c : NodeRef}

/-- The forms at or below a node, in tree order. -/
def forms (d : Document) (r : NodeRef) : List NodeRef := (d.store.descendants r).filter fun g => d.kind? g == some .form

/-- The nodes at or below a form that have no other form nearer to them, in tree order. -/
def owned (d : Document) (f : NodeRef) : List NodeRef :=
  (d.store.descendants f).filter fun c => d.enclosingForm? c == some f

/-- What the nodes that belong to a form contribute. -/
def ownEntries (d : Document) (f : NodeRef) : List (String × FormEntry) := (d.owned f).flatMap d.contribution

/-- All that contributes to the entry list of a form belongs to the form. -/
def Owns (d : Document) (f : NodeRef) : Prop :=
  ∀ c ∈ d.store.below f, d.contribution c ≠ [] → d.enclosingForm? c = some f

/-- How a form and the forms below it share the controls. -/
structure Ownership (d : Document) (f : NodeRef) : Prop where
  /-- The form submits what its own controls contribute and what those of the forms below it contribute. -/
  entries : ∃ data, d.formData f = .ok data ∧ data.entries.Perm ((d.forms f).flatMap d.ownEntries)
  own_iff : d.Owns f ↔ d.formData f = .ok ⟨d.ownEntries f⟩
  owns_iff : d.Owns f ↔ ∀ g ∈ d.forms f, g ≠ f → d.formData g = .ok {}
  /-- Events of a control carry the fields of the form that it belongs to. -/
  event : ∀ c ∈ d.store.below f, d.contribution c ≠ [] → ∃ g ∈ d.forms f, d.enclosingForm? c = some g ∧
    c ∈ d.owned g ∧ ∃ m, d.fieldMap g = .ok m ∧ ∀ (e : NativeEvent) (id : NodeId), e.target = c →
      EventCategory.ofName? e.type = some .form →
        (EventRecord.ofEvent d e id).data = .form ((d.value? c).getD "") (d.checked c) m

/-- What a filter takes from a list contributes nothing just if it leaves all that contributes. -/
theorem flatMap_filter_eq_iff {α β : Type} {p : α → Bool} {F : α → List β} {l : List α} :
    (l.filter p).flatMap F = l.flatMap F ↔ ∀ a ∈ l, F a ≠ [] → p a = true := by
  induction l with
  | nil => simp
  | cons a l ih =>
    rw [List.forall_mem_cons, ← ih, List.filter_cons, List.flatMap_cons]
    cases ha : p a with
    | true => simp
    | false =>
      have hle : ((l.filter p).flatMap F).length ≤ (l.flatMap F).length :=
        (List.filter_sublist.flatMap F).length_le
      constructor
      · intro heq
        have hlength := congrArg List.length heq
        simp only [Bool.false_eq_true, if_false, List.length_append] at hlength
        have hnil : F a = [] := List.length_eq_zero_iff.mp (by omega)
        exact ⟨fun hne => absurd hnil hne, by simpa [hnil] using heq⟩
      · rintro ⟨hnil, heq⟩
        simp only [Bool.false_eq_true, imp_false, not_not] at hnil
        simpa [hnil] using heq

/-! ## The nearest form -/

theorem live_of_kind? {k : ElementKind} (hf : d.kind? f = some k) : d.store.Live f := by
  obtain ⟨e, he, -⟩ := Option.map_eq_some_iff.mp hf
  exact get?_isSome_iff.mp (by rw [element?_eq_some_iff.mp he]; rfl)

/-- A control is not a form. -/
theorem contribution_of_form (hf : d.kind? f = some .form) : d.contribution f = [] := by
  by_contra hne
  obtain ⟨e, name, hs⟩ := exists_submits hne
  have hform : e.kind = .form := by
    rw [kind?, hs.element] at hf
    exact Option.some.inj hf
  have hcontrol := hs.kind
  rw [hform] at hcontrol
  simp at hcontrol

/-- Below a form there is a form around each node. -/
theorem enclosingForm?_isSome (hf : d.kind? f = some .form) (hc : f ∈ d.store.ancestors c) :
    (d.enclosingForm? c).isSome = true :=
  List.find?_isSome.mpr ⟨f, hc, beq_iff_eq.mpr hf⟩

/-- A record of a form event has the fields of the form around its target. -/
theorem data_ofEvent {m : FieldMap} {e : NativeEvent} (hg : d.enclosingForm? e.target = some g)
    (hm : d.fieldMap g = .ok m) (hcategory : EventCategory.ofName? e.type = some .form) (id : NodeId) :
    (EventRecord.ofEvent d e id).data = .form ((d.value? e.target).getD "") (d.checked e.target) m := by
  rw [EventRecord.ofEvent, hcategory, EventData.ofEvent, EventData.ofForm, hg]
  simp only [hm]
  rfl

section WellFormed

variable (h : d.store.WellFormed)
include h

theorem enclosingForm?_spec (hg : d.enclosingForm? c = some g) : g ∈ d.store.ancestors c ∧
    d.kind? g = some .form ∧ ∀ f ∈ d.store.ancestors c, d.kind? f = some .form → f ∈ d.store.ancestors g := by
  obtain ⟨hkind, front, back, hup, hfront⟩ := List.find?_eq_some_iff_append.mp hg
  refine ⟨List.mem_of_find?_eq_some hg, beq_iff_eq.mp hkind, fun f hf hform => ?_⟩
  rw [h.ancestors_of_append hup]
  rw [hup] at hf
  refine (List.mem_append.mp hf).resolve_left fun hmem => ?_
  have hnot := hfront f hmem
  rw [hform] at hnot
  simp at hnot

/-- **The form around a node is the one on the way up that is below all others there.** -/
theorem enclosingForm?_eq_some_iff : d.enclosingForm? c = some g ↔ g ∈ d.store.ancestors c ∧
    d.kind? g = some .form ∧ ∀ f ∈ d.store.ancestors c, d.kind? f = some .form → f ∈ d.store.ancestors g := by
  refine ⟨enclosingForm?_spec h, fun ⟨hup, hkind, hlow⟩ => ?_⟩
  obtain ⟨g', hg'⟩ := Option.isSome_iff_exists.mp (enclosingForm?_isSome hkind hup)
  obtain ⟨hup', hkind', hlow'⟩ := enclosingForm?_spec h hg'
  rw [hg', h.ancestors_antisymm (hlow g' hup' hkind') (hlow' g hup hkind)]

/-! ## Forms share the nodes -/

theorem mem_forms_iff : g ∈ d.forms f ↔ f ∈ d.store.ancestors g ∧ d.kind? g = some .form := by
  rw [forms, List.mem_filter, h.mem_descendants_iff, beq_iff_eq]

theorem mem_owned_iff : c ∈ d.owned g ↔ d.enclosingForm? c = some g := by
  rw [owned, List.mem_filter, h.mem_descendants_iff, beq_iff_eq]
  exact ⟨And.right, fun hc => ⟨(enclosingForm?_spec h hc).1, hc⟩⟩

/-- **The forms at or below a form share the nodes among them.** -/
theorem perm_owned (hf : d.kind? f = some .form) :
    ((d.forms f).flatMap d.owned).Perm (d.store.descendants f) := by
  refine (List.perm_ext_iff_of_nodup (List.nodup_flatMap.mpr ⟨fun g _ => ?_, ?_⟩)
    (h.distinct.nodup_descendants f)).mpr fun c => ?_
  · exact (h.distinct.nodup_descendants g).filter _
  · have hdistinct : (d.forms f).Nodup := (h.distinct.nodup_descendants f).filter _
    refine hdistinct.imp fun {g g'} hne c hc hc' => hne ?_
    rw [mem_owned_iff h] at hc hc'
    exact Option.some.inj (hc.symm.trans hc')
  · rw [List.mem_flatMap, h.mem_descendants_iff]
    constructor
    · rintro ⟨g, hg, hc⟩
      have hup := (enclosingForm?_spec h ((mem_owned_iff h).mp hc)).1
      exact h.ancestors_subset hup ((mem_forms_iff h).mp hg).1
    · intro hc
      obtain ⟨g, hg⟩ := Option.isSome_iff_exists.mp (enclosingForm?_isSome hf hc)
      obtain ⟨-, hkind, hlow⟩ := enclosingForm?_spec h hg
      exact ⟨g, (mem_forms_iff h).mpr ⟨hlow f hc hf, hkind⟩, (mem_owned_iff h).mpr hg⟩

/-! ## Forms share the entries -/

theorem formData_of_form (hf : d.kind? f = some .form) :
    d.formData f = .ok ⟨(d.store.descendants f).flatMap d.contribution⟩ := by
  rw [(h.distinct.descendants_eq_cons (live_of_kind? hf)).1, List.flatMap_cons, contribution_of_form hf,
    List.nil_append, formData, if_pos hf]
  rfl

/-- The entries of a form are its own and those of the forms below it. -/
theorem perm_ownEntries (hf : d.kind? f = some .form) :
    ((d.store.descendants f).flatMap d.contribution).Perm ((d.forms f).flatMap d.ownEntries) := by
  have hperm := (perm_owned h hf).flatMap_right d.contribution
  rw [List.flatMap_assoc] at hperm
  exact hperm.symm

theorem formData_eq_nil_iff (hf : d.kind? f = some .form) :
    d.formData f = .ok {} ↔ ∀ c, f ∈ d.store.ancestors c → d.contribution c = [] := by
  rw [formData_of_form h hf, Except.ok.injEq, FormData.mk.injEq, List.flatMap_eq_nil_iff]
  simp only [h.mem_descendants_iff]

/-- To be below a form and to be at or below it is the same for all that contributes. -/
theorem owns_iff_forall_descendants (hf : d.kind? f = some .form) :
    d.Owns f ↔ ∀ c ∈ d.store.descendants f, d.contribution c ≠ [] → d.enclosingForm? c = some f := by
  rw [(h.distinct.descendants_eq_cons (live_of_kind? hf)).1, List.forall_mem_cons]
  exact ⟨fun hd => ⟨fun hne => absurd (contribution_of_form hf) hne, hd⟩, And.right⟩

theorem owns_iff_formData_eq (hf : d.kind? f = some .form) : d.Owns f ↔ d.formData f = .ok ⟨d.ownEntries f⟩ := by
  rw [formData_of_form h hf, Except.ok.injEq, FormData.mk.injEq, eq_comm, ownEntries, owned, flatMap_filter_eq_iff,
    owns_iff_forall_descendants h hf]
  simp only [beq_iff_eq]

/-- **A form submits no more than what belongs to it exactly if no form below it submits anything.** -/
theorem owns_iff_forall_forms (hf : d.kind? f = some .form) :
    d.Owns f ↔ ∀ g ∈ d.forms f, g ≠ f → d.formData g = .ok {} := by
  rw [owns_iff_forall_descendants h hf]
  constructor
  · intro hd g hg hne
    obtain ⟨hup, hkind⟩ := (mem_forms_iff h).mp hg
    refine (formData_eq_nil_iff h hkind).mpr fun c hc => ?_
    by_contra hcontributes
    have hbelow := h.mem_descendants_iff.mpr (h.ancestors_subset hc hup)
    obtain ⟨-, -, hlow⟩ := enclosingForm?_spec h (hd c hbelow hcontributes)
    exact hne (h.ancestors_antisymm (hlow g hc hkind) hup)
  · intro hnone c hc hcontributes
    obtain ⟨g, hg⟩ := Option.isSome_iff_exists.mp (enclosingForm?_isSome hf (h.mem_descendants_iff.mp hc))
    obtain ⟨hup, hkind, hlow⟩ := enclosingForm?_spec h hg
    have hforms := (mem_forms_iff h).mpr ⟨hlow f (h.mem_descendants_iff.mp hc) hf, hkind⟩
    by_cases hne : g = f
    · rw [hg, hne]
    · exact absurd ((formData_eq_nil_iff h hkind).mp (hnone g hforms hne) c hup) hcontributes

theorem fieldMap_of_form (hf : d.kind? f = some .form) : ∃ m, d.fieldMap f = .ok m := by
  refine ⟨.ofEntries ((d.store.descendants f).flatMap d.contribution), ?_⟩
  rw [fieldMap, formData_of_form h hf]
  rfl

/-- **The forms in a tree share its controls by the nearest form. A form submits just what belongs to it if no form
below it submits anything; otherwise its entries and those of the events of its controls disagree.** -/
theorem ownership_of_form (hf : d.kind? f = some .form) : d.Ownership f where
  entries := ⟨_, formData_of_form h hf, perm_ownEntries h hf⟩
  own_iff := owns_iff_formData_eq h hf
  owns_iff := owns_iff_forall_forms h hf
  event c hc hcontributes := by
    have hup := (h.distinct.mem_below_iff.mp hc).1
    obtain ⟨g, hg⟩ := Option.isSome_iff_exists.mp (enclosingForm?_isSome hf hup)
    obtain ⟨-, hkind, hlow⟩ := enclosingForm?_spec h hg
    obtain ⟨m, hm⟩ := fieldMap_of_form h hkind
    refine ⟨g, (mem_forms_iff h).mpr ⟨hlow f hup hf, hkind⟩, hg, (mem_owned_iff h).mpr hg, m, hm, ?_⟩
    rintro e id rfl hcategory
    exact data_ofEvent hg hm hcategory id

end WellFormed

/-- Where the only control of an inner form is disabled, the outer form submits its own one alone. -/
theorem exists_ownership : ∃ (d : Document) (f g : NodeRef), d.store.WellFormed ∧ d.kind? f = some .form ∧
    d.Ownership f ∧ d.forms f = [f, g] ∧ d.Owns f ∧ d.ownEntries f = [("q", .text "a")] := by
  let element (tag : String) (attributes : List Attribute) : NodeData := .element ⟨tag, none, none, attributes, [], {}⟩
  let document (s : Store) : Document := { store := s }
  obtain ⟨s, h, hkind, hforms, hown, hinner⟩ : ∃ s : Store, s.WellFormed ∧
      (document s).kind? (.cell 1 0) = some .form ∧
      (document s).forms (.cell 1 0) = [.cell 1 0, .cell 2 0] ∧
      (document s).ownEntries (.cell 1 0) = [("q", .text "a")] ∧
      (document s).formData (.cell 2 0) = .ok {} :=
    ⟨_, wellFormed_new.foldl_apply [.insertNode (element "form" []) rfl, .insertNode (element "form" []) rfl,
      .insertNode (element "input" [.plain "name" "q", .plain "value" "a"]) rfl,
      .insertNode (element "input" [.plain "name" "q", .plain "disabled" ""]) rfl,
      .appendChild (.cell 1 0) (.cell 2 0), .appendChild (.cell 1 0) (.cell 3 0),
      .appendChild (.cell 2 0) (.cell 4 0)],
      by decide +kernel, by decide +kernel, by decide +kernel, by decide +kernel⟩
  have hshared := ownership_of_form (d := document s) h hkind
  refine ⟨document s, _, _, h, hkind, hshared, hforms, hshared.owns_iff.mpr fun g hg hne => ?_, hown⟩
  rw [hforms] at hg
  obtain rfl : g = .cell 2 0 := by simpa [hne] using hg
  exact hinner

/-- A form that is built inside another one has a control, and the outer form submits it too. -/
theorem exists_disowned : ∃ (d : Document) (f g c : NodeRef), d.store.WellFormed ∧ d.kind? f = some .form ∧
    c ∈ d.store.below f ∧ d.contribution c = [("q", .text "")] ∧ d.enclosingForm? c = some g ∧ g ≠ f ∧ ¬ d.Owns f := by
  let element (tag : String) (attributes : List Attribute) : NodeData := .element ⟨tag, none, none, attributes, [], {}⟩
  let document (s : Store) : Document := { store := s }
  obtain ⟨s, h, hkind, hbelow, hc, hg⟩ : ∃ s : Store, s.WellFormed ∧
      (document s).kind? (.cell 1 0) = some .form ∧ .cell 3 0 ∈ s.below (.cell 1 0) ∧
      (document s).contribution (.cell 3 0) = [("q", .text "")] ∧
      (document s).enclosingForm? (.cell 3 0) = some (.cell 2 0) :=
    ⟨_, wellFormed_new.foldl_apply [.insertNode (element "form" []) rfl, .insertNode (element "form" []) rfl,
      .insertNode (element "input" [.plain "name" "q"]) rfl, .appendChild (.cell 1 0) (.cell 2 0),
      .appendChild (.cell 2 0) (.cell 3 0)],
      by decide +kernel, by decide +kernel, by decide +kernel, by decide +kernel⟩
  refine ⟨document s, _, _, _, h, hkind, hbelow, hc, hg, by decide, fun howns => ?_⟩
  have hnear := howns _ hbelow (by simp [hc])
  rw [hg] at hnear
  exact absurd hnear (by decide)

end DomHost.Document
