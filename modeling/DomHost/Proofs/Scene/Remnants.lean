import DomHost.Proofs.Scene.Effects
import DomHost.Proofs.Scene.Saved

/-!
# What a refused template leaves behind

A template is built in the document, node by node, and a list that is refused is refused on the way. The nodes
that were created until then are not taken back: they stay in the document as detached trees, and nothing knows
them.

* `HostError.blamesList`: the faults of a list of descriptors;
* `Descriptor.built`: the number of nodes that are created of a list;
* `Scene.createDescribed_of_refused`, **`Scene.assemble_built`**: building what can be built;
* `Scene.Remains`: a scene in which so many nodes are left, and everything else is as it was;
* **`Scene.remains_saveTemplate`**: a template that is refused.
-/

namespace DomHost

theorem eq_error_of_map {ε α β : Type} {x : Except ε α} {f : α → β} {e : ε} (h : x.map f = .error e) :
    x = .error e := by
  cases x with
  | error e' => cases h; rfl
  | ok a => cases h

theorem eq_error_of_bind {ε α β : Type} {x : Except ε α} {f : α → Except ε β} {e : ε} (h : x >>= f = .error e) :
    x = .error e ∨ ∃ a, x = .ok a ∧ f a = .error e := by
  cases x with
  | error e' => cases h; exact Or.inl rfl
  | ok a => exact Or.inr ⟨a, rfl, h⟩

/-- Does a fault blame the list of descriptors that a template is defined by? -/
def HostError.blamesList : HostError → Bool
  | template _ => true
  | document (.invalidCharacter _) => true
  | document (.namespaceMismatch ..) => true
  | _ => false

/-! ## Refused names -/

section Names

variable {name tag : String} {ns : Option String} {err : DomError}

theorem blamesList_of_validateName (h : validateName name = .error err) :
    (HostError.document err).blamesList = true := by
  unfold validateName at h
  split at h
  · cases h
  · cases h
    rfl

theorem blamesList_of_extract (h : QualifiedName.extract ns name = .error err) :
    (HostError.document err).blamesList = true := by
  unfold QualifiedName.extract at h
  rcases eq_error_of_bind h with h | ⟨-, -, h⟩
  · exact blamesList_of_validateName h
  rcases eq_error_of_bind h with h | ⟨parts, -, h⟩
  · unfold QualifiedName.split at h
    split at h
    · cases h
    · split at h
      · cases h
        rfl
      · cases h
  · dsimp only at h
    split at h
    · cases h
    · cases h
      rfl

end Names

namespace Descriptor

variable {d : Descriptor} {ds ds' : List Descriptor} {e : Element} {a : TemplateAttribute} {err : DomError}

theorem blamesList_of_bare {tag : String} {ns : Option String} (h : bare tag ns = .error err) :
    (HostError.document err).blamesList = true := by
  cases ns with
  | some ns => exact blamesList_of_extract (eq_error_of_map h)
  | none => exact blamesList_of_validateName (eq_error_of_map h)

theorem blamesList_of_attach (h : attach e a = .error err) : (HostError.document err).blamesList = true := by
  obtain ⟨name, value, ns⟩ := a
  cases ns with
  | some ns => exact blamesList_of_extract (eq_error_of_map h)
  | none => exact blamesList_of_validateName (eq_error_of_map h)

theorem blamesList_of_attaches {attributes : List TemplateAttribute} (h : attributes.foldlM attach e = .error err) :
    (HostError.document err).blamesList = true := by
  induction attributes generalizing e with
  | nil => cases h
  | cons a attributes ih =>
    rw [List.foldlM_cons] at h
    rcases eq_error_of_bind h with h | ⟨e', -, h⟩
    · exact blamesList_of_attach h
    · exact ih h

/-! ## What can be built -/

/-- The number of nodes that are created of a descriptor. A refused tag gives none; a refused attribute comes
after the element. -/
def created : Descriptor → Nat
  | element tag ns _ _ _ => if (bare tag ns).isOk then 1 else 0
  | _ => 1

/-- The number of nodes that are created of a list: reading ends at the first descriptor that is refused. -/
def built : List Descriptor → Nat
  | [] => 0
  | d :: rest => d.created + if d.data.isOk then built rest else 0

theorem Accepted.created_eq (h : d.Accepted) : d.created = 1 := by
  obtain ⟨x, hx⟩ := h
  cases d with
  | element tag ns attributes count slot =>
    obtain ⟨e, -, hbare, -, -⟩ := exists_element hx
    rw [created, hbare]
    rfl
  | text t | dynamicText | placeholder => rfl

theorem built_append (h : ∀ d ∈ ds, d.Accepted) : built (ds ++ ds') = ds.length + built ds' := by
  induction ds with
  | nil => simp
  | cons d ds ih =>
    obtain ⟨hd, hds⟩ := List.forall_mem_cons.mp h
    rw [List.cons_append, built, hd.created_eq, hd.data_eq, ih hds, List.length_cons]
    simp only [Except.isOk, Except.toBool, if_true]
    omega

theorem built_of_accepted (h : ∀ d ∈ ds, d.Accepted) : built ds = ds.length := by
  have happend : built (ds ++ []) = ds.length := built_append h
  rwa [List.append_nil] at happend

/-- Nothing is created of an empty list, and of one that begins with a refused tag. -/
theorem built_eq_zero_iff : built ds = 0 ↔ ∀ d ∈ ds.head?, d.created = 0 := by
  cases ds with
  | nil => simp [built]
  | cons d rest =>
    simp only [built, List.head?_cons, Option.mem_some_iff, forall_eq']
    refine ⟨fun h => by omega, fun h => ?_⟩
    have hrefused : d.data.isOk = false := by
      cases hd : d.data with
      | error err => rfl
      | ok x =>
        rw [Accepted.created_eq ⟨x, hd⟩] at h
        cases h
    rw [h, hrefused]
    rfl

/-- A list is accepted, or there is a first descriptor that is not. -/
theorem accepted_or_refused (ds : List Descriptor) : (∀ d ∈ ds, d.Accepted) ∨
    ∃ front d rest err, ds = front ++ d :: rest ∧ (∀ d ∈ front, d.Accepted) ∧ d.data = .error err := by
  induction ds with
  | nil => exact Or.inl (by simp)
  | cons d rest ih =>
    cases hd : d.data with
    | error err => exact Or.inr ⟨[], d, rest, err, rfl, by simp, hd⟩
    | ok x =>
      rcases ih with hall | ⟨front, d', rest', err, rfl, hfront, hd'⟩
      · exact Or.inl (List.forall_mem_cons.mpr ⟨⟨x, hd⟩, hall⟩)
      · exact Or.inr ⟨d :: front, d', rest', err, rfl, List.forall_mem_cons.mpr ⟨⟨x, hd⟩, hfront⟩, hd'⟩

end Descriptor

namespace Scene

variable {κ α : Type} {s t : Scene κ} {d : Descriptor} {ds : List Descriptor} {e : Element}
  {r : NodeRef} {err : DomError}

/-- A refused tag creates nothing. -/
theorem newElement_of_refused {tag : String} {ns : Option String} (h : Descriptor.bare tag ns = .error err) :
    newElement tag ns s = .error (.document err) s := by
  unfold newElement
  cases ns with
  | some ns =>
    refine onStore_of_error (u := s.store) ?_
    unfold Store.createElementNs
    rw [eq_error_of_map h]
    rfl
  | none =>
    refine bind_of_error ?_ _
    rw [eq_error_of_map h]
    rfl

/-- A refused attribute is not set. -/
theorem writeAttribute_of_refused {a : TemplateAttribute} (h : Descriptor.attach e a = .error err) :
    writeAttribute r a.name a.value a.ns s = .error (.document err) s := by
  obtain ⟨name, value, ns⟩ := a
  unfold writeAttribute
  cases ns with
  | some ns =>
    refine onStore_of_error (u := s.store) ?_
    unfold Store.setAttributeNs
    rw [eq_error_of_map h]
    rfl
  | none =>
    refine onStore_of_error (u := s.store) ?_
    unfold Store.setAttribute
    rw [eq_error_of_map h]
    rfl

/-- The attributes in front of a refused one are set. -/
theorem forM_writeAttribute_of_refused (hs : s.store.WellFormed) {attributes : List TemplateAttribute}
    (h : attributes.foldlM Descriptor.attach e = .error err) :
    ∃ e', (attributes.forM fun a => (writeAttribute s.store.cells.draw.1 a.name a.value a.ns : SceneM κ Unit))
        (s.withStore (s.store.create (.element e)).2) =
      .error (.document err) (s.withStore (s.store.create (.element e')).2) := by
  induction attributes generalizing e with
  | nil => cases h
  | cons a attributes ih =>
    rw [List.foldlM_cons] at h
    rcases eq_error_of_bind h with h | ⟨e', ha, h⟩
    · exact ⟨e, bind_of_error (writeAttribute_of_refused h) _⟩
    · obtain ⟨e'', hrest⟩ := ih h
      exact ⟨e'', (bind_of_ok (writeAttribute_eq hs ha)).trans hrest⟩

/-- **A refused descriptor leaves a node behind if its tag is accepted.** -/
theorem createDescribed_of_refused (hs : s.store.WellFormed) (h : d.data = .error err) :
    (HostError.document err).blamesList = true ∧ ∃ st, createDescribed d s = .error (.document err) (s.withStore st) ∧
      st.WellFormed ∧ s.store.Gains d.created st := by
  cases d with
  | text t | dynamicText | placeholder => cases h
  | element tag ns attributes count slot =>
    rw [Descriptor.data] at h
    rcases eq_error_of_bind h with hbare | ⟨e, hbare, h⟩
    · refine ⟨Descriptor.blamesList_of_bare hbare, s.store, bind_of_error (newElement_of_refused hbare) _, hs, ?_⟩
      rw [Descriptor.created, hbare]
      exact .refl s.store
    · have hattach := eq_error_of_map h
      obtain ⟨e', hattributes⟩ := forM_writeAttribute_of_refused hs hattach
      refine ⟨Descriptor.blamesList_of_attaches hattach, (s.store.create (.element e')).2, ?_,
        hs.plant (Store.plantable_leaf rfl), ?_⟩
      · exact (bind_of_ok (newElement_eq hbare)).trans (bind_of_error hattributes _)
      · rw [Descriptor.created, hbare]
        exact s.store.gains_create _

/-- **Of a list all that can be built is built**, and it is refused for its own sake. -/
theorem assemble_built (hs : s.store.WellFormed) (total : Nat) (ds : List Descriptor) :
    ∃ st, st.WellFormed ∧ s.store.Gains (Descriptor.built ds) st ∧
      ((∃ a, assemble total ds {} s = .ok a (s.withStore st)) ∨
        ∃ e, e.blamesList = true ∧ assemble total ds {} s = .error e (s.withStore st)) := by
  rcases Descriptor.accepted_or_refused ds with hok | ⟨front, d, rest, err, rfl, hfront, hd⟩
  · obtain ⟨a, st, -, hst, hgains, hread⟩ := assemble_accepted hs hok total
    have hend := hread []
    rw [List.append_nil] at hend
    rw [Descriptor.built_of_accepted hok, hend]
    refine ⟨st, hst, hgains, ?_⟩
    unfold assemble
    split
    · exact Or.inl ⟨a, rfl⟩
    · exact Or.inr ⟨_, rfl, rfl⟩
  · obtain ⟨a, st, -, hst, hgains, hread⟩ := assemble_accepted hs hfront total
    obtain ⟨hblames, st', hrefused, hst', hmore⟩ := createDescribed_of_refused (s := s.withStore st) hst hd
    rw [Descriptor.built_append hfront, Descriptor.built, hd, hread]
    refine ⟨st', hst', hgains.trans hmore, Or.inr ⟨_, hblames, ?_⟩⟩
    unfold assemble
    exact bind_of_error hrefused _

/-! ## Refused templates -/

theorem freeSubtree_fault {d d' : Document} (h : Document.freeSubtree r d = .error err d') :
    err = .notFound r ∨ err = .hierarchyRequest .documentFreed := by
  cases hfree : Store.freeSubtree r d.store with
  | ok freed st =>
    have hok : Document.freeSubtree r d = .ok freed.length _ := bind_of_ok (Document.onStore_of_ok hfree)
    rw [hok] at h
    cases h
  | error err' st =>
    have herror : Document.freeSubtree r d = .error err' _ := bind_of_error (Document.onStore_of_error hfree) _
    rw [herror] at h
    cases h
    unfold Store.freeSubtree at hfree
    by_cases hr : d.store.Live r
    · obtain ⟨x, hx⟩ := Option.isSome_iff_exists.mp (Store.get?_isSome_iff.mpr hr)
      rw [bind_of_ok (Store.require_of_get? hx)] at hfree
      split at hfree <;> cases hfree
      exact Or.inr rfl
    · rw [bind_of_error (Store.require_of_not_live hr)] at hfree
      cases hfree
      exact Or.inl rfl

theorem freeReplaced_fault {old : Option Template} {e : HostError} (h : freeReplaced old s = .error e t) :
    ∃ tm err d, old = some tm ∧ e = .document err ∧ Document.freeSubtree tm.root s.document = .error err d := by
  cases old with
  | none => cases h
  | some tm =>
    cases hfree : Document.freeSubtree tm.root s.document with
    | ok n d =>
      have hok : freeReplaced (some tm) s = .ok () _ := discard_of_ok (onDocument_of_ok hfree)
      rw [hok] at h
      cases h
    | error err d =>
      have herror : freeReplaced (some tm) s = .error (.document err) _ :=
        discard_of_error (onDocument_of_error hfree)
      rw [herror] at h
      cases h
      exact ⟨tm, err, d, rfl, rfl, hfree⟩

/-- Nodes that were created of a refused list are left. Everything else is as it was: the templates, the ids, the
closures and the listeners, and each node with its data, what is below it and what is above it. -/
structure Remains (ds : List Descriptor) (s t : Scene κ) : Prop where
  scene : t = s.withStore t.store
  tree? : ∀ r, s.store.Live r → t.store.tree? r = s.store.tree? r
  ancestors : ∀ r, s.store.Live r → t.store.ancestors r = s.store.ancestors r
  left : ∃ new : List NodeRef, new.Nodup ∧ new.length = Descriptor.built ds ∧ (∀ r ∈ new, ¬ s.store.Live r) ∧
    ∀ r, t.store.Live r ↔ r ∈ new ∨ s.store.Live r
  /-- There is no trace just of a list of which nothing could be created. -/
  traceless : t = s ↔ ∀ d ∈ ds.head?, d.created = 0

theorem remains_of_gains {st : Store} (hst : st.WellFormed) (h : s.store.Gains (Descriptor.built ds) st) :
    s.Remains ds (s.withStore st) where
  scene := rfl
  tree? _ := h.tree?_eq hst
  ancestors _ := h.ancestors_eq hst
  left := h.exists_new hst
  traceless := by
    rw [← Descriptor.built_eq_zero_iff]
    constructor
    · intro he
      obtain ⟨new, -, hlength, hnew, hlive⟩ := h.exists_new hst
      have hst : st = s.store := congrArg Scene.store he
      rw [← hlength, List.length_eq_zero_iff, List.eq_nil_iff_forall_not_mem]
      exact fun r hr => hnew r hr (hst ▸ (hlive r).mpr (Or.inl hr))
    · intro hzero
      rw [h.same hzero]
      rfl

/-- A template is refused for its list, or the tree that it takes the place of cannot be freed. -/
theorem saveTemplate_fault (hs : s.store.WellFormed) {number : UInt32} {e : HostError}
    (h : saveTemplate number ds s = .error e t) :
    ∃ st, st.WellFormed ∧ s.store.Gains (Descriptor.built ds) st ∧
      ((e.blamesList = true ∧ t = s.withStore st) ∨ ∃ templates,
        freeReplaced (s.templates.get? number) { s.withStore st with templates } = .error e t) := by
  unfold saveTemplate at h
  rw [get_bind_apply] at h
  split at h
  · cases h
  obtain ⟨st, hst, hgains, ⟨a, hread⟩ | ⟨e', hblames, hread⟩⟩ := assemble_built hs ds.length ds
  · refine ⟨st, hst, hgains, ?_⟩
    rw [bind_of_ok hread] at h
    rcases hroots : a.roots with - | ⟨root, - | ⟨root', roots⟩⟩ <;> rw [hroots] at h
    · cases h
      exact Or.inl ⟨rfl, rfl⟩
    · exact Or.inr ⟨s.templates.put number ⟨ds, root, a.slots⟩, h⟩
    · cases h
      exact Or.inl ⟨rfl, rfl⟩
  · rw [bind_of_error hread] at h
    cases h
    exact ⟨st, hst, hgains, Or.inl ⟨hblames, rfl⟩⟩

/-- **A template whose list is refused leaves exactly the nodes behind that were created until then, and nothing
else.** There is no trace if the list is empty or begins with a refused tag. -/
theorem remains_saveTemplate (hs : s.store.WellFormed) {number : UInt32} {e : HostError}
    (h : saveTemplate number ds s = .error e t) (he : e.blamesList = true) : s.Remains ds t := by
  obtain ⟨st, hst, hgains, ⟨-, rfl⟩ | ⟨templates, hfree⟩⟩ := saveTemplate_fault hs h
  · exact remains_of_gains hst hgains
  · obtain ⟨tm, err, d, -, rfl, hfault⟩ := freeReplaced_fault hfree
    rcases freeSubtree_fault hfault with rfl | rfl <;> cases he

/-- An element that waits for two more children, and the text that it has got. -/
theorem exists_remains :
    let s : Scene Unit := { document := .new }
    let ds : List Descriptor := [.element "div" none [] 3 false, .text "a"]
    s.store.WellFormed ∧ ∃ e t, saveTemplate 1 ds s = .error e t ∧ e.blamesList = true ∧ s.Remains ds t ∧
      t.store.len = s.store.len + 2 := by
  intro s ds
  have hs : s.store.WellFormed := Document.whole_new.store
  obtain ⟨e, t, hrun, he, hlen⟩ : ∃ e t, saveTemplate 1 ds s = .error e t ∧ e.blamesList = true ∧
      t.store.len = s.store.len + 2 := ⟨_, _, rfl, rfl, rfl⟩
  exact ⟨hs, e, t, hrun, he, remains_saveTemplate hs hrun he, hlen⟩

/-- Two texts are no template, and are live when they have been refused. -/
theorem not_forall_saveTemplate_traceless : ¬ ∀ (s t : Scene Unit) (number : UInt32) (ds : List Descriptor)
    (e : HostError), s.store.WellFormed → saveTemplate number ds s = .error e t → e.blamesList = true →
      ∀ r, t.store.Live r → s.store.Live r := by
  intro h
  have hlive := h { document := .new } _ 1 [.text "a", .text "b"] _ Document.whole_new.store rfl rfl (.cell 4 0)
    (by decide +kernel)
  exact absurd hlive (by decide +kernel)

/-- In a sound scene the tree that is replaced can be freed, so it is always the list that is to blame. -/
theorem Sound.blamesList_saveTemplate {closed : Prop} {ts : List (Node × Forest Node)} (h : s.Sound closed ts)
    {number : UInt32} {e : HostError} (hrun : Scene.saveTemplate number ds s = .error e t) : e.blamesList = true := by
  obtain ⟨st, hst, hgains, ⟨hblames, -⟩ | ⟨templates, hfree⟩⟩ := saveTemplate_fault h.store.wellFormed hrun
  · exact hblames
  · obtain ⟨tm, err, d, hold, rfl, hfault⟩ := freeReplaced_fault hfree
    obtain ⟨u, hu, hur, -⟩ := h.exists_tree hold
    have hroot : tm.root ∈ Store.refsOf ts := Store.mem_refsOf.mpr ⟨u, hu, u.1, List.mem_cons_self, hur⟩
    obtain ⟨new, -, -, -, hlive⟩ := hgains.exists_new hst
    have hno := ((Document.ends_freeSubtree_store (d := (s.withStore st).document) hst tm.root).error hfault).2
    exact absurd ⟨(hlive tm.root).mpr (Or.inr (h.store.live_of_mem_refsOf hroot)),
      fun he => h.outside (he ▸ hroot)⟩ hno

end Scene

end DomHost
