import DomHost.Proofs.Document
import DomHost.Proofs.Store.Ancestry
import DomHost.Proofs.Store.Elements

/-!
# The elements of a document

A document begins with the elements of `Document.new`, with none, or with those that a text writes. After that
elements come from markup and from calls that create them, and operations that move nodes bring none.

* `Document.Origin`: where a document comes from;
* **`Document.Origin.every_iff`**: what holds of every element of it as it is made;
* `Document.written`, **`Document.ends_addFragment_every`**: the elements that markup adds;
* `Document.sustains_setProperty`, `Document.sustains_replaceChildren`: edits that bring no other elements.
-/

namespace DomHost.Document

variable {P : Element → Prop} {d : Document} {r : NodeRef}

/-! ## Documents as they are made -/

theorem every_ofMarkup {f : Forest Markup.Item} (h : ofMarkup f = .ok d) :
    d.store.Every P ↔ ∀ x ∈ (Markup.image f).toList, x.Fits P := by
  have hplant := Store.ends_plantEach_every (P := P) (I := Store.WellFormed) (E := fun _ => True)
    (Store.appendChild .root) (fun s d k hs hp => hs.plant hp) (fun r s hs => ?_)
    (Markup.plantables_image f) over_empty.store
  · unfold Ends at hplant
    unfold ofMarkup at h
    split at h
    · rename_i rs s hs
      rw [hs] at hplant
      have hnone : empty.store.Every P := by simp [Store.Every, empty, Store.new, NodeData.Fits]
      rw [and_iff_left hnone] at hplant
      have hstore : ({ empty with store := s } : Document).finalize.store = s := by
        unfold finalize
        split <;> rfl
      rw [← Except.ok.inj h, hstore]
      exact hplant.2
    · cases h
  · refine (Store.ends_insertBefore s .root r none).mono ?_ fun _ _ => trivial
    rintro _ _ ⟨hi, before, rfl⟩
    exact ⟨(hs.guards.place before hi (by simp [Store.refsOf]) (by simp [Store.refsOf])).wellFormed,
      hs.every_place_iff hi before⟩

/-- Where a document comes from. -/
inductive Origin where
  | new
  | empty
  | html (text : String)

namespace Origin

/-- The document, unless its text is refused. -/
def document : Origin → Except DomError Document
  | new => .ok .new
  | empty => .ok .empty
  | html text => ofHtml text

/-- The nodes below the document as it is made. -/
def nodes : Origin → List NodeData
  | new => ["html", "head", "body"].map fun tag => .element (Store.htmlElement tag)
  | empty => []
  | html text => (Markup.image (Markup.parseDocument text)).toList

variable {o : Origin}

theorem over_document (h : o.document = .ok d) : d.Over {} Store.WellFormed := by
  cases o with
  | new => exact Except.ok.inj h ▸ over_new
  | empty => exact Except.ok.inj h ▸ over_empty
  | html text => exact over_ofHtml h

/-- **What holds of every element of a document as it is made holds of the nodes that it is made of.** -/
theorem every_iff (h : o.document = .ok d) : d.store.Every P ↔ ∀ x ∈ o.nodes, x.Fits P := by
  cases o with
  | new =>
    rw [← Except.ok.inj h]
    simp [Store.Every, Document.new, nodes, NodeData.Fits]
  | empty =>
    rw [← Except.ok.inj h]
    simp [Store.Every, Document.empty, Store.new, nodes, NodeData.Fits]
  | html text => exact every_ofMarkup h

end Origin

/-! ## Markup -/

/-- The nodes that a text writes inside a given element. -/
def written (d : Document) (context : NodeRef) (html : String) : List NodeData :=
  match d.store.element? context with
  | some e => (Markup.image (Markup.parseFragment e.localName (e.ns.getD htmlNs) html)).toList
  | none => []

theorem fits_written (hread : ∀ f, ∀ x ∈ (Markup.image f).toList, x.Fits P) (d : Document) (context : NodeRef)
    (html : String) : ∀ x ∈ d.written context html, x.Fits P := by
  unfold written
  split
  · exact hread _
  · exact fun x hx => absurd hx List.not_mem_nil

theorem ends_plantImage_every (d : Document) (f : Forest Markup.Item) :
    Ends (onStore (Store.plantEach (fun _ => pure ()) (Markup.image f))) d
      (fun _ d' => d'.store.Every P ↔ (∀ x ∈ (Markup.image f).toList, x.Fits P) ∧ d.store.Every P)
      fun _ => False := by
  have hrow := Store.ends_plantEach_every (P := P) (I := fun _ => True) (E := fun _ => False) (s := d.store)
    (fun _ => pure ()) (fun _ _ _ _ _ => trivial) (fun _ _ _ => Ends.pure ⟨trivial, Iff.rfl⟩)
    (Markup.plantables_image f) trivial
  exact (ends_onStore rfl hrow).mono (fun _ _ h => h.store.2) fun _ h => h.store

/-- **The elements that come with markup are those that the text writes.** -/
theorem ends_addFragment_every (d : Document) (context : NodeRef) (html : String) :
    Ends (addFragment context html) d
      (fun _ d' => d'.store.Every P ↔ (∀ x ∈ d.written context html, x.Fits P) ∧ d.store.Every P)
      fun d' => d'.store.Every P ↔ (∀ x ∈ d.written context html, x.Fits P) ∧ d.store.Every P := by
  unfold addFragment written
  have hcheck := ends_onStore (g := d.listeners) rfl (Store.ends_requireElement_element? d.store context)
  refine (hcheck.mono (fun _ _ h => h.store) fun d' h => by simp [h.store.1, h.store.2]).bind ?_
  rintro e d' ⟨hd, he⟩
  rw [he, ← hd]
  exact (ends_plantImage_every d' _).mono (fun _ _ h => h) fun _ h => h.elim

/-! ## Edits -/

theorem sustains_setProperty (hcontrol : ∀ e c, P e → P { e with control := c })
    (hname : ∀ e, ∀ name ∈ ["class", "value"], ∀ value, P e → P (e.setAttr (.plain name value)))
    (r : NodeRef) (property : Property) (value : String) :
    Keeps (fun d d' : Document => d.store.Sustains P d'.store) (setProperty r property value) := by
  refine keeps_setProperty Store.lasting_sustains (fun r f hf => ?_) (fun name hn => ?_)
    fun _ => Store.sustains_setTextContent r value
  · refine Store.sustains_updateElement (fun e he => ?_) r
    obtain ⟨c, hc⟩ := hf e
    exact hc ▸ hcontrol e c he
  · refine .bind Store.lasting_sustains (Store.keeps_liftResult Store.lasting_sustains _) fun _ => ?_
    refine Store.sustains_updateElement (fun e he => ?_) r
    have hlower : Store.attributeName e name = name := by
      have hall : ∀ name ∈ ["class", "value"], name.toLower = name := by decide +kernel
      unfold Store.attributeName
      rw [hall name hn, ite_self]
    exact hlower.symm ▸ hname e name hn value he

theorem sustains_replaceChildren (r : NodeRef) (children : List NodeRef) :
    Keeps (fun d d' : Document => d.store.Sustains P d'.store) (replaceChildren r children) :=
  keeps_replaceChildren Store.lasting_sustains (fun s r => Store.sustains_scatter s r)
    (fun s p c b _ => Store.sustains_place s p c b) r children

theorem sustains_freeSubtree (r : NodeRef) :
    Keeps (fun d d' : Document => d.store.Sustains P d'.store) (freeSubtree r) :=
  keeps_freeSubtree Store.lasting_sustains (Store.sustains_freeSubtree r)

end DomHost.Document
