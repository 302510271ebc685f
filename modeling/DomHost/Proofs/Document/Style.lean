import DomHost.Proofs.Document.Elements
import DomHost.Proofs.Store.Declarations

/-!
# Properties that are declared once

A call that declares a property writes over its first declaration, so calls alone never declare a property twice.
A style attribute that is read keeps all its declarations, and so does an element that is inserted as it is. An
element declares a property twice at some time exactly if one of these does.

* `Document.Edit`, `Document.Edit.apply`: the calls that edit a document;
* `Document.Edit.brings`, `Document.brought`: the nodes that calls read or insert;
* `Document.history`: the documents that calls lead through;
* `Document.Edit.every_apply`, `Document.every_history_iff_of_steady`: what no edit of an element takes away;
* **`Document.declaresOnce_history_iff`**: when all of them declare every property once;
* **`Document.exists_declared_twice`**: an element that keeps another declaration of the property it is given.
-/

namespace DomHost.Document

variable {d : Document} {o : Origin}

/-! ## Calls -/

/-- A call that edits a document, with any arguments. -/
inductive Edit where
  | addFragment (context : NodeRef) (html : String)
  | build (o : Store.Operation)
  | setStyle (r : NodeRef) (property value : String)
  | setAttribute (r : NodeRef) (name value : String)
  | setAttributeNs (r : NodeRef) (ns : Option String) (name value : String)
  | removeAttribute (r : NodeRef) (ns : Option String) (name : String)
  | toggleAttribute (r : NodeRef) (name : String) (force : Option Bool)
  | setProperty (r : NodeRef) (property : Property) (value : String)
  | replaceChildren (r : NodeRef) (children : List NodeRef)
  | freeSubtree (r : NodeRef)

namespace Edit

/-- Carries out a call; what it returns is not looked at. -/
def run : Edit → DocumentM Unit
  | addFragment context html => discard (Document.addFragment context html)
  | build o => onStore o.run
  | setStyle r property value => onStore (Store.setStyle r property value)
  | setAttribute r name value => onStore (Store.setAttribute r name value)
  | setAttributeNs r ns name value => onStore (Store.setAttributeNs r ns name value)
  | removeAttribute r ns name => onStore (Store.removeAttribute r ns name)
  | toggleAttribute r name force => discard (onStore (Store.toggleAttribute r name force))
  | setProperty r property value => Document.setProperty r property value
  | replaceChildren r children => Document.replaceChildren r children
  | freeSubtree r => discard (Document.freeSubtree r)

/-- The document after a call, whether it succeeded or failed. -/
def apply (d : Document) (x : Edit) : Document :=
  match x.run d with
  | .ok _ d => d
  | .error _ d => d

/-- The nodes that a call reads from a text or inserts as they are. -/
def brings (d : Document) : Edit → List NodeData
  | addFragment context html => d.written context html
  | build o => o.inserted
  | _ => []

variable {x : Edit} {P : Element → Prop}

theorem apply_of_ends {Q : Document → Prop} (h : Ends x.run d (fun _ => Q) Q) : Q (x.apply d) := by
  unfold Ends at h
  unfold apply
  cases hx : x.run d <;> rw [hx] at h <;> exact h

theorem wellFormed_apply (h : d.store.WellFormed) (x : Edit) : (x.apply d).store.WellFormed := by
  have hg : d.Over d.listeners (Store.Guards [] []) := ⟨rfl, h.guards⟩
  have hr : ∀ r : NodeRef, r ∉ Store.refsOf [] := fun r => by simp [Store.refsOf]
  have hend : Ends x.run d (fun _ => Over d.listeners (Store.Guards [] []))
      (Over d.listeners (Store.Guards [] [])) → (x.apply d).store.WellFormed := fun hx =>
    apply_of_ends (Q := fun d' => d'.store.WellFormed)
      (hx.mono (fun _ _ hd => hd.store.wellFormed) fun _ hd => hd.store.wellFormed)
  have hset := fun r f => ends_onStore hg.listeners (hg.store.updateElement (hr r) f)
  cases x with
  | addFragment context html =>
    refine hend ((ends_addFragment hg context html).discard.mono ?_ fun _ hd => hd)
    rintro _ _ ⟨_, hd⟩
    exact hd.mono fun _ hs => hs.1
  | build o =>
    exact apply_of_ends (Q := fun d' => d'.store.WellFormed)
      ((ends_onStore rfl (o.ends_run h)).mono (fun _ _ hd => hd.store) fun _ hd => hd.store)
  | setStyle r property value => exact hend (hset r _)
  | setAttribute r name value => exact hend (ends_onStore rfl (hg.store.setAttribute (hr r) name value))
  | setAttributeNs r ns name value => exact hend (ends_onStore rfl (hg.store.setAttributeNs (hr r) ns name value))
  | removeAttribute r ns name => exact hend (hset r _)
  | toggleAttribute r name force =>
    refine hend ((ends_onStore rfl (hg.store.toggleAttribute (hr r) name force)).discard.mono ?_ fun _ hd => hd)
    rintro _ _ ⟨_, hd⟩
    exact hd
  | setProperty r property value => exact hend (ends_setProperty hg (hr r) property value)
  | replaceChildren r children => exact hend (ends_replaceChildren hg (hr r) fun c _ => hr c)
  | freeSubtree r =>
    have hfree := ends_onStore (d := d) rfl ((h.guards.freeSubtree (hr r) (by simp)).mono
      (fun _ _ hs => hs.1.wellFormed) fun _ hs => hs ▸ h)
    refine apply_of_ends (x := .freeSubtree r) (Q := fun d' => d'.store.WellFormed) ?_
    refine Ends.mono (Ends.discard (Ends.bind (hfree.mono (fun _ _ hd => hd.store) fun _ hd => hd.store)
      (Q := fun _ d' => d'.store.WellFormed) fun freed d' hd => ?_)) ?_ fun _ hd => hd
    · exact Ends.bind (R := fun _ d' => d'.store.WellFormed) (Ends.modify hd) fun _ _ hd => Ends.pure hd
    · rintro _ _ ⟨_, hd⟩
      exact hd

/-- **After a call something holds of every element if it did before, holds of all that the call brings, and is taken
away by no edit.** -/
theorem every_apply (hP : Store.Steady P) (h : d.store.Every P) (hx : ∀ data ∈ x.brings d, data.Fits P) :
    (x.apply d).store.Every P := by
  have hL := Store.lasting_sustains (P := P)
  have hkeep : Keeps (fun d d' : Document => d.store.Sustains P d'.store) x.run →
      (x.apply d).store.Every P := fun hk =>
    apply_of_ends (Q := fun d' => d'.store.Every _) ((hk d).mono (fun _ _ hs => hs h) fun _ hs => hs h)
  have hattr : ∀ r (f : Element → Element), (∀ e : Element, e.Reattributed (f e)) →
      Keeps (Store.Sustains P) (Store.updateElement r f) := fun r f hf =>
    Store.sustains_updateElement (fun e he => hP.reattributed (hf e) he) r
  cases x with
  | addFragment context html =>
    have hend := (ends_addFragment_every (P := P) d context html).discard
    exact apply_of_ends (Q := fun d' => d'.store.Every _)
      (hend.mono (fun _ _ ⟨_, hd⟩ => hd.mpr ⟨hx, h⟩) fun _ hd => hd.mpr ⟨hx, h⟩)
  | build o => exact hkeep (keeps_onStore (Store.sustains_run hP.bare hx))
  | setStyle r property value =>
    exact hkeep (keeps_onStore (Store.sustains_updateElement (fun e he => hP.declare e property value he) r))
  | setAttribute r name value => exact hkeep (keeps_onStore (Store.keeps_setAttribute hL (hattr r) name value))
  | setAttributeNs r ns name value =>
    exact hkeep (keeps_onStore (Store.keeps_setAttributeNs hL (hattr r) ns name value))
  | removeAttribute r ns name => exact hkeep (keeps_onStore (Store.keeps_removeAttribute (hattr r) ns name))
  | toggleAttribute r name force =>
    exact hkeep (keeps_onStore (Store.keeps_toggleAttribute hL (hattr r) name force)).discard
  | setProperty r property value =>
    exact hkeep (sustains_setProperty hP.control (fun e _ _ _ he => hP.setAttr e _ he) r property value)
  | replaceChildren r children => exact hkeep (sustains_replaceChildren r children)
  | freeSubtree r => exact hkeep (sustains_freeSubtree r).discard

/-- What a call brings is there after it. -/
theorem fits_brings (h : (x.apply d).store.Every P) : ∀ data ∈ x.brings d, data.Fits P := by
  cases x with
  | addFragment context html =>
    have hend := (ends_addFragment_every (P := P) d context html).discard
    exact (apply_of_ends (x := .addFragment context html) (Q := fun d' => d'.store.Every P ↔ _)
      (hend.mono (fun _ _ ⟨_, hd⟩ => hd) fun _ hd => hd)).mp h |>.1
  | build o =>
    cases o with
    | insertNode data hd => exact fun x hx => List.mem_singleton.mp hx ▸ (Store.every_create_iff.mp h).1
    | _ => simp [brings, Store.Operation.inserted]
  | _ => simp [brings]

end Edit

/-! ## Runs -/

/-- The documents that calls lead through, the first one included. -/
def history (d : Document) : List Edit → List Document
  | [] => [d]
  | x :: rest => d :: history (x.apply d) rest

/-- The nodes that calls read or insert, made one after another. -/
def brought (d : Document) : List Edit → List NodeData
  | [] => []
  | x :: rest => x.brings d ++ brought (x.apply d) rest

theorem wellFormed_of_mem_history (h : d.store.WellFormed) {edits : List Edit} {d' : Document}
    (hd : d' ∈ d.history edits) : d'.store.WellFormed := by
  induction edits generalizing d with
  | nil => exact List.mem_singleton.mp hd ▸ h
  | cons x rest ih =>
    rcases List.mem_cons.mp hd with rfl | hd
    · exact h
    · exact ih (x.wellFormed_apply h) hd

theorem foldl_apply_mem_history (d : Document) (edits : List Edit) :
    edits.foldl Edit.apply d ∈ d.history edits := by
  induction edits generalizing d with
  | nil => exact List.mem_singleton_self d
  | cons x rest ih => exact List.mem_cons_of_mem _ (ih (x.apply d))

theorem every_history_iff_of_steady {P : Element → Prop} (hP : Store.Steady P) (d : Document) (edits : List Edit) :
    (∀ d' ∈ d.history edits, d'.store.Every P) ↔
      d.store.Every P ∧ ∀ data ∈ d.brought edits, data.Fits P := by
  induction edits generalizing d with
  | nil => simp [history, brought]
  | cons x rest ih =>
    rw [history, brought, List.forall_mem_cons, List.forall_mem_append, ih]
    refine and_congr_right fun h => ?_
    exact ⟨fun ⟨hnext, hrest⟩ => ⟨Edit.fits_brings hnext, hrest⟩,
      fun ⟨hx, hrest⟩ => ⟨Edit.every_apply hP h hx, hrest⟩⟩

theorem every_history_iff (d : Document) (edits : List Edit) :
    (∀ d' ∈ d.history edits, d'.store.Every Element.DeclaresOnce) ↔
      d.store.Every Element.DeclaresOnce ∧ ∀ data ∈ d.brought edits, data.Fits Element.DeclaresOnce :=
  every_history_iff_of_steady Element.steady_declaresOnce d edits

/-- **Every property is declared once at all times exactly if it is so in all that is read and inserted.** At any
time a property that is declared gets its value in the place of its first declaration, and loses all of its
declarations with an empty value, and nothing else changes. -/
theorem declaresOnce_history_iff (h : o.document = .ok d) (edits : List Edit) :
    ((∀ d' ∈ d.history edits, ∀ r e, d'.store.element? r = some e → e.DeclaresOnce) ↔
      ∀ data ∈ o.nodes ++ d.brought edits, data.Fits Element.DeclaresOnce) ∧
    ∀ d' ∈ d.history edits, ∀ r e, d'.store.element? r = some e → ∀ property value,
      ∃ s' e', Store.setStyle r property value d'.store = .ok () s' ∧ s'.element? r = some e' ∧
        e.Declares property value e' ∧ ∀ x, x ≠ r → s'.get? x = d'.store.get? x := by
  have hw : ∀ d' ∈ d.history edits, d'.store.WellFormed := fun d' hd =>
    wellFormed_of_mem_history (Origin.over_document h).store hd
  constructor
  · rw [List.forall_mem_append, ← Origin.every_iff h, ← every_history_iff]
    exact forall₂_congr fun d' hd => (hw d' hd).distinct.every_iff.symm
  · intro d' _ r e he property value
    obtain ⟨s', hrun, hnew, hsame⟩ := Store.exists_setStyle he property value
    exact ⟨s', _, hrun, hnew, e.declares_declare property value, hsame⟩

/-- An element gets two declarations, and one of them again, beside a text that is read. -/
theorem exists_declaresOnce : ∃ (d : Document) (edits : List Edit), Origin.new.document = .ok d ∧
    edits.length = 5 ∧
    (∀ d' ∈ d.history edits, ∀ r e, d'.store.element? r = some e → e.DeclaresOnce) ∧
    ∃ d' ∈ d.history edits, ∃ e, d'.store.element? (.cell 4 0) = some e ∧
      e.style = [("color", "red"), ("width", "1px")] ∧
      ∃ s' e', Store.setStyle (.cell 4 0) "color" "blue" d'.store = .ok () s' ∧
        s'.element? (.cell 4 0) = some e' ∧ e.Declares "color" "blue" e' ∧
        e'.style.filter (·.1 == "color") = [("color", "blue")] := by
  let edits : List Edit := [.build (.createElement "div"), .setStyle (.cell 4 0) "color" "red",
    .addFragment (.cell 4 0) "<p style='top: 0; left: 0'>x</p>", .setStyle (.cell 4 0) "width" "1px",
    .setStyle (.cell 4 0) "height" ""]
  obtain ⟨hiff, hset⟩ := declaresOnce_history_iff (o := .new) rfl edits
  have hfits : ∀ data ∈ Origin.new.nodes ++ Document.new.brought edits, data.Fits Element.DeclaresOnce := by
    decide +kernel
  have hlast := foldl_apply_mem_history Document.new edits
  have hstyle : ((edits.foldl Edit.apply .new).store.element? (.cell 4 0)).map (·.style) =
      some [("color", "red"), ("width", "1px")] := by decide +kernel
  obtain ⟨e, he, hes⟩ := Option.map_eq_some_iff.mp hstyle
  obtain ⟨s', e', hrun, hnew, hdeclares, -⟩ := hset _ hlast _ e he "color" "blue"
  have hall := hiff.mpr hfits
  have hone := (hdeclares.once (by decide)).mpr ((hall _ hlast _ e he).length_filter_le "color")
  exact ⟨_, edits, rfl, rfl, hall, _, hlast, e, he, hes, s', e', hrun, hnew, hdeclares, hone⟩

/-- **A declaration of a property stays beside the one that is given to it.** -/
theorem exists_declared_twice : ∃ d, Origin.document (.html "<div style='color: red; color: blue'></div>") = .ok d ∧
    ∃ e s', d.store.element? (.cell 4 0) = some e ∧ ¬ e.DeclaresOnce ∧
      Store.setStyle (.cell 4 0) "color" "green" d.store = .ok () s' ∧
      (s'.element? (.cell 4 0)).bind (·.styleText) = some "color: green; color: blue;" := by
  let twice : Element := ⟨"div", none, none, [], [("color", "red"), ("color", "blue")], {}⟩
  have hread : (Origin.document (.html "<div style='color: red; color: blue'></div>")).toOption.any
      (fun d => decide (d.store.element? (.cell 4 0) = some twice)) = true := by decide +kernel
  obtain ⟨d, hd, he⟩ := exists_of_toOption hread
  obtain ⟨s', hrun, hnew, -⟩ := Store.exists_setStyle (of_decide_eq_true he) "color" "green"
  refine ⟨d, hd, twice, s', of_decide_eq_true he, by decide, hrun, ?_⟩
  rw [hnew]
  decide +kernel

end DomHost.Document
