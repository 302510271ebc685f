import DomHost.Document.Form
import DomHost.Proofs.Listener
import DomHost.Proofs.Store.Contents

/-!
# Operations on documents

An operation on the store of a document leaves its listeners as they are, and an operation on the
listeners leaves the store as it is.

* `Markup.forall_mem_image`, `Markup.plantables_image`: the nodes that parsed trees become;
* `Document.Over`: a document with given listeners, and a fact about its store;
* **`Document.ends_onStore`**, `Document.onStore_of_ok` and others: an operation on the store, seen from the
  document;
* `Document.keeps_setProperty`, `Document.keeps_replaceChildren`: what edits keep of the store;
* `Document.ends_setProperty`, `Document.ends_addFragment`, `Document.ends_replaceChildren`: edits;
* `Document.ends_freeSubtree`: removing a tree without listeners;
* `Document.ends_addListener`, `Document.ends_removeListener`: the listeners of a live node;
* `Document.over_new`, `Document.over_empty`, **`Document.over_ofHtml`**: documents as they are made;
* `Document.Whole`: documents whose parts agree.
-/

namespace DomHost

/-! ## Parsed trees -/

namespace Markup

theorem isDocument_of_data? {i : Item} {d : NodeData} (h : i.data? = some d) :
    d.isDocument = false := by
  cases i <;> simp [Item.data?] at h <;> rw [← h] <;> rfl

/-- **What holds of the node of every item holds of all nodes that parsed trees become.** -/
theorem forall_mem_image {P : NodeData → Prop} (h : ∀ i d, Item.data? i = some d → P d) (f : Forest Item) :
    ∀ x ∈ (image f).toList, P x := by
  induction f with
  | nil => exact fun x hx => absurd hx List.not_mem_nil
  | node i c n ihc ihn =>
    rw [image]
    split
    · rename_i d hd
      rw [Forest.toList_node, List.forall_mem_cons, List.forall_mem_append]
      refine ⟨h i d hd, fun x hx => ?_, ihn⟩
      split at hx
      · exact ihc x hx
      · exact absurd hx List.not_mem_nil
    · exact ihn

/-- Only elements have children in the nodes that parsed trees become. -/
theorem bearsOnly_children (d : NodeData) {c : Forest NodeData} (h : c.BearsOnly fun d => d.isContainer = true) :
    ((if d.isElement then c else .nil) ≠ .nil → d.isContainer = true) ∧
      (if d.isElement then c else .nil).BearsOnly fun d => d.isContainer = true := by
  cases d with
  | element e => exact ⟨fun _ => rfl, h⟩
  | document | text s | comment s => exact ⟨fun hne => absurd rfl hne, trivial⟩

theorem bearsOnly_image (f : Forest Item) : (image f).BearsOnly fun d => d.isContainer = true := by
  induction f with
  | nil => trivial
  | node i c n ihc ihn =>
    rw [image]
    split
    · rename_i d hd
      have hkids := bearsOnly_children d ihc
      exact ⟨hkids.1, hkids.2, ihn⟩
    · exact ihn

theorem plantables_image (f : Forest Item) : Store.Plantables (image f) := by
  induction f with
  | nil => trivial
  | node i c n _ ihn =>
    have hall := forall_mem_image (fun i d hd => isDocument_of_data? (i := i) hd) (.node i c .nil)
    rw [image] at hall ⊢
    split
    · rename_i d hd
      rw [hd] at hall
      have hkids := bearsOnly_children d (bearsOnly_image c)
      exact ⟨⟨⟨hkids.1, hkids.2, trivial⟩, fun e he => hall e (by simpa [image] using he)⟩, ihn⟩
    · exact ihn

end Markup

namespace Document

variable {α : Type} {d : Document} {g : Registry} {ts : List (Node × Forest Node)}
  {held : List NodeRef} {r : NodeRef}

/-- A document with given listeners, and a fact about its store. -/
structure Over (g : Registry) (P : Store → Prop) (d : Document) : Prop where
  listeners : d.listeners = g
  store : P d.store

theorem Over.mono {P Q : Store → Prop} (h : d.Over g P) (hpq : ∀ s, P s → Q s) : d.Over g Q :=
  ⟨h.listeners, hpq _ h.store⟩

theorem onStore_of_ok {x : StoreM α} {a : α} {s : Store} (h : x d.store = .ok a s) :
    onStore x d = .ok a { d with store := s } := by
  unfold onStore
  rw [h]

theorem onStore_of_error {x : StoreM α} {e : DomError} {s : Store} (h : x d.store = .error e s) :
    onStore x d = .error e { d with store := s } := by
  unfold onStore
  rw [h]

/-- **An operation on the store keeps the listeners.** -/
theorem ends_onStore {x : StoreM α} {Q : α → Store → Prop} {E : Store → Prop}
    (hg : d.listeners = g) (h : Ends x d.store Q E) :
    Ends (onStore x) d (fun a => Over g (Q a)) (Over g E) := by
  unfold Ends at h
  unfold Ends onStore
  cases hx : x d.store with
  | ok a s =>
    rw [hx] at h
    exact ⟨hg, h⟩
  | error e s =>
    rw [hx] at h
    exact ⟨hg, h⟩

/-- What an operation keeps of the store. -/
theorem keeps_onStore {R : Store → Store → Prop} {x : StoreM α} (hx : Keeps R x) :
    Keeps (fun d d' : Document => R d.store d'.store) (onStore x) := fun d =>
  (ends_onStore rfl (hx d.store)).mono (fun _ _ h => h.store) fun _ h => h.store

theorem lasting_onStore {R : Store → Store → Prop} (hR : Lasting R) :
    Lasting fun d d' : Document => R d.store d'.store :=
  ⟨fun d => hR.refl d.store, fun h h' => hR.trans h h'⟩

section Keeps

variable {R : Store → Store → Prop} (hR : Lasting R)
include hR

theorem keeps_select (hcontrol : ∀ r (f : Element → Element), (∀ e, ∃ c, f e = { e with control := c }) →
    Keeps R (Store.updateElement r f)) (value : String) (options : List NodeRef) (matched : Bool) :
    Keeps (fun d d' : Document => R d.store d'.store) (select value options matched) := by
  induction options generalizing matched with
  | nil => exact .pure (lasting_onStore hR) _
  | cons o rest ih =>
    refine .get_bind fun d => .bind (lasting_onStore hR) (keeps_onStore (hcontrol o _ fun e => ?_)) fun _ => ih _
    exact ⟨_, rfl⟩

/-- **A property that is assigned changes the state of a control, one of two attributes or the content.** -/
theorem keeps_setProperty {property : Property} {r : NodeRef} {value : String}
    (hcontrol : ∀ r (f : Element → Element), (∀ e, ∃ c, f e = { e with control := c }) →
      Keeps R (Store.updateElement r f))
    (hname : ∀ name ∈ ["class", "value"], Keeps R (Store.setAttribute r name value))
    (htext : property = .textContent → Keeps R (Store.setTextContent r value)) :
    Keeps (fun d d' : Document => R d.store d'.store) (setProperty r property value) := by
  have hvalue := keeps_onStore (hname "value" (by simp))
  cases property with
  | className => exact keeps_onStore (hname "class" (by simp))
  | textContent => exact keeps_onStore (htext rfl)
  | innerHtml => exact .throw (lasting_onStore hR) _
  | checked =>
    refine keeps_onStore (hcontrol r _ fun e => ?_)
    split
    · exact ⟨_, rfl⟩
    · exact ⟨e.control, rfl⟩
  | value =>
    refine .bind (lasting_onStore hR) (keeps_onStore (Store.keeps_requireElement hR r)) fun e => ?_
    cases e.kind with
    | input => exact keeps_onStore (hcontrol r _ fun e => ⟨_, rfl⟩)
    | textArea => exact keeps_onStore (hcontrol r _ fun e => ⟨_, rfl⟩)
    | select => exact .get_bind fun d => keeps_select hR hcontrol value _ false
    | selectOption => exact hvalue
    | form => exact hvalue
    | generic => exact hvalue

theorem keeps_replaceChildren (hscatter : ∀ s r, R s (Store.scatter s r))
    (hplace : ∀ s parent child before, s.Insertable parent child → R s (Store.place s parent child before))
    (r : NodeRef) (children : List NodeRef) :
    Keeps (fun d d' : Document => R d.store d'.store) (replaceChildren r children) := by
  have hL := lasting_onStore hR
  refine .bind hL (keeps_onStore (Store.keeps_require hR r)) fun d => .ite ?_ (.throw_bind hL _ _)
  refine .bind hL (keeps_onStore (.modify fun s => hscatter s r)) fun _ => .forM hL (fun child => ?_) children
  exact keeps_onStore (Store.keeps_insertBefore hR hplace r child none)

theorem keeps_freeSubtree (hfree : Keeps R (Store.freeSubtree r)) :
    Keeps (fun d d' : Document => R d.store d'.store) (freeSubtree r) := by
  have hL := lasting_onStore hR
  exact .bind hL (keeps_onStore hfree) fun freed => .bind hL (.modify fun d => hR.refl d.store) fun _ => .pure hL _

theorem keeps_addListener (r : NodeRef) (l : Listener) :
    Keeps (fun d d' : Document => R d.store d'.store) (addListener r l) :=
  .bind (lasting_onStore hR) (keeps_onStore (Store.keeps_require hR r)).discard fun _ d =>
    Ends.modifyGet (hR.refl d.store)

theorem keeps_removeListener (r : NodeRef) (type : String) (handler : HandlerId) (capture : Bool) :
    Keeps (fun d d' : Document => R d.store d'.store) (removeListener r type handler capture) :=
  .bind (lasting_onStore hR) (keeps_onStore (Store.keeps_require hR r)).discard fun _ d =>
    Ends.modifyGet (hR.refl d.store)

end Keeps

theorem ends_require (d : Document) (r : NodeRef) :
    Ends (onStore (Store.require r)) d (fun _ d' => d' = d ∧ d.store.Live r) (· = d) := by
  have h := Store.ends_require d.store r
  unfold Ends at h
  unfold Ends onStore
  cases hx : Store.require r d.store with
  | ok a s =>
    rw [hx] at h
    refine ⟨by rw [h.1], Store.get?_isSome_iff.mp ?_⟩
    rw [h.2]
    rfl
  | error e s =>
    rw [hx] at h
    change { d with store := s } = d
    rw [show s = d.store from h]

/-- An element that is found by its `id` is below the document. -/
theorem mem_descendants_of_elementById? {id : String} (h : d.elementById? id = some r) :
    r ∈ d.store.descendants .root := by
  unfold elementById? at h
  split at h
  · exact absurd h (by simp)
  · split at h
    · exact absurd h (by simp)
    · rename_i n c ht
      obtain ⟨m, hm, rfl⟩ := Option.map_eq_some_iff.mp h
      rw [Store.descendants_of_tree? ht]
      exact List.mem_map_of_mem (List.mem_cons_of_mem _ (List.mem_of_find?_eq_some hm))

/-! ## Contents -/

theorem ends_select (h : d.Over g (Store.Guards ts held)) (value : String) {options : List NodeRef}
    (ho : ∀ o ∈ options, o ∉ Store.refsOf ts) (matched : Bool) :
    Ends (select value options matched) d (fun _ => Over g (Store.Guards ts held))
      (Over g (Store.Guards ts held)) := by
  induction options generalizing d matched with
  | nil => exact Ends.pure h
  | cons o rest ih =>
    have ho' := List.forall_mem_cons.mp ho
    unfold select
    refine Ends.get_bind ?_
    refine (ends_onStore h.listeners (h.store.updateElement ho'.1 _)).bind fun _ d h => ?_
    exact ih h ho'.2 _

theorem ends_setValue (h : d.Over g (Store.Guards ts held)) (hr : r ∉ Store.refsOf ts)
    (value : String) :
    Ends (setValue r value) d (fun _ => Over g (Store.Guards ts held))
      (Over g (Store.Guards ts held)) := by
  unfold setValue
  refine (ends_onStore h.listeners (h.store.requireElement r)).bind fun e d h => ?_
  have hset := fun f => ends_onStore h.listeners (h.store.updateElement hr f)
  have hattr := ends_onStore h.listeners (h.store.setAttribute hr "value" value)
  cases e.kind with
  | input => exact hset _
  | textArea => exact hset _
  | select =>
    refine Ends.get_bind (ends_select h value (fun o ho => ?_) false)
    exact h.store.descendant_notMem hr (List.mem_filter.mp ho).1
  | selectOption => exact hattr
  | form => exact hattr
  | generic => exact hattr

theorem ends_setProperty (h : d.Over g (Store.Guards ts held)) (hr : r ∉ Store.refsOf ts)
    (property : Property) (value : String) :
    Ends (setProperty r property value) d (fun _ => Over g (Store.Guards ts held))
      (Over g (Store.Guards ts held)) := by
  cases property with
  | className => exact ends_onStore h.listeners (h.store.setAttribute hr "class" value)
  | textContent => exact ends_onStore h.listeners (h.store.setTextContent hr value)
  | innerHtml => exact Ends.throw h
  | value => exact ends_setValue h hr value
  | checked => exact ends_onStore h.listeners (h.store.updateElement hr _)

/-! ## Trees -/

theorem ends_addFragment (h : d.Over g (Store.Guards ts held)) (context : NodeRef) (html : String) :
    Ends (addFragment context html) d
      (fun rs => Over g fun s => s.Guards ts held ∧ ∀ r ∈ rs, r ∉ Store.refsOf ts)
      (Over g (Store.Guards ts held)) := by
  unfold addFragment
  refine (ends_onStore h.listeners (h.store.requireElement context)).bind fun e d h => ?_
  have hplant : ∀ f : Forest Markup.Item, Ends (onStore (Store.plantEach (fun _ => pure ()) (Markup.image f)))
      d (fun rs => Over g fun s => s.Guards ts held ∧ ∀ r ∈ rs, r ∉ Store.refsOf ts)
      (Over g (Store.Guards ts held)) := fun f =>
    ends_onStore h.listeners
      (Store.Guards.plantEach (fun _ _ _ hs => Ends.pure hs) (Markup.plantables_image f) h.store)
  exact hplant _

theorem ends_replaceChildren (h : d.Over g (Store.Guards ts held)) (hr : r ∉ Store.refsOf ts)
    {children : List NodeRef} (hc : ∀ c ∈ children, c ∉ Store.refsOf ts) :
    Ends (replaceChildren r children) d (fun _ => Over g (Store.Guards ts held))
      (Over g (Store.Guards ts held)) := by
  unfold replaceChildren
  refine ((ends_require d r).mono (fun _ _ he => he.1) fun _ he => he ▸ h).bind ?_
  rintro e _ rfl
  refine Ends.ite (fun _ => ?_) fun _ => Ends.throw_bind h
  refine (ends_onStore h.listeners (h.store.clearChildren hr)).bind fun _ d h => ?_
  exact Ends.forM (fun c hm _ hd => ends_onStore hd.listeners (hd.store.insertBefore hr (hc c hm) none)) h

theorem takeAll_foldl_eq_self {rs : List NodeRef} (h : ∀ x ∈ rs, x ∉ g.nodes) :
    rs.foldl (fun g n => (g.takeAll n).2) g = g := by
  induction rs with
  | nil => rfl
  | cons x rs ih =>
    have h' := List.forall_mem_cons.mp h
    rw [List.foldl_cons, Registry.takeAll_eq_self h'.1, ih h'.2]

/-- **A tree without listeners is freed, or nothing changes.** -/
theorem ends_freeSubtree (h : d.Over g (Store.Guards ts held)) (hr : r ∉ Store.refsOf ts)
    (hl : ∀ x ∈ held ++ g.nodes, x ∉ d.store.descendants r) :
    Ends (freeSubtree r) d (fun _ => Over g (Store.Guards ts held))
      (Over g (Store.Guards ts held)) := by
  have hheld : ∀ x ∈ held, x ∉ d.store.descendants r := fun x hx => hl x (List.mem_append_left _ hx)
  have hfree := (h.store.freeSubtree hr hheld).mono (fun _ _ he => he) fun _ he => he ▸ h.store
  unfold freeSubtree
  refine (ends_onStore h.listeners hfree).bind fun freed d' h' => ?_
  refine (Ends.modify (Q := fun _ => Over g (Store.Guards ts held)) ⟨?_, h'.store.1⟩).bind ?_
  · rw [h'.listeners, h'.store.2]
    refine takeAll_foldl_eq_self fun x hx hg => ?_
    exact hl x (List.mem_append_right _ hg) hx
  · exact fun _ _ h => Ends.pure h

/-! ## Listeners -/

theorem discard_require_of_live (h : d.store.Live r) :
    discard (onStore (Store.require r)) d = .ok () d := by
  obtain ⟨data, hd⟩ := Option.isSome_iff_exists.mp (Store.get?_isSome_iff.mpr h)
  refine discard_of_ok (a := data) ?_
  rw [onStore, Store.require_of_get? hd]

theorem addListener_of_live (h : d.store.Live r) (l : Listener) :
    addListener r l d = .ok (d.listeners.add r l).1 { d with listeners := (d.listeners.add r l).2 } :=
  bind_of_ok (discard_require_of_live h)

theorem removeListener_of_live (h : d.store.Live r) (type : String) (handler : HandlerId)
    (capture : Bool) :
    removeListener r type handler capture d = .ok (d.listeners.remove r type handler capture).1
      { d with listeners := (d.listeners.remove r type handler capture).2 } :=
  bind_of_ok (discard_require_of_live h)

theorem removeListener_of_not_live (h : ¬ d.store.Live r) (type : String) (handler : HandlerId)
    (capture : Bool) : removeListener r type handler capture d = .error (.notFound r) d := by
  have hreq : onStore (Store.require r) d = .error (.notFound r) d := by
    rw [onStore, Store.require_of_not_live h]
  exact bind_of_error (discard_of_error hreq) _

theorem ends_addListener (d : Document) (r : NodeRef) (l : Listener) :
    Ends (addListener r l) d
      (fun added d' => d.store.Live r ∧ added = (d.listeners.add r l).1 ∧
        d' = { d with listeners := (d.listeners.add r l).2 }) (· = d) := by
  unfold addListener
  refine ((ends_require d r).discard.mono (fun _ _ he => he) fun _ he => he).bind ?_
  rintro _ _ ⟨_, rfl, hr⟩
  exact Ends.modifyGet ⟨hr, rfl, rfl⟩

theorem ends_removeListener (d : Document) (r : NodeRef) (type : String) (handler : HandlerId)
    (capture : Bool) :
    Ends (removeListener r type handler capture) d
      (fun removed d' => d.store.Live r ∧ removed = (d.listeners.remove r type handler capture).1 ∧
        d' = { d with listeners := (d.listeners.remove r type handler capture).2 }) (· = d) := by
  unfold removeListener
  refine ((ends_require d r).discard.mono (fun _ _ he => he) fun _ he => he).bind ?_
  rintro _ _ ⟨_, rfl, hr⟩
  exact Ends.modifyGet ⟨hr, rfl, rfl⟩

/-! ## Whole documents -/

theorem over_new : new.Over {} Store.WellFormed where
  listeners := rfl
  store :=
    { cells := ⟨[0, 1, 2, 3], by decide, by decide⟩
      bears := .cons rfl (.cons rfl (.leaf (.leaf .empty)) .empty) .empty
      document := List.mem_cons_self
      onlyDocument := by decide }

/-- A document whose parts agree: the store is well formed, and listeners are on live nodes, none twice. -/
structure Whole (d : Document) : Prop where
  store : d.store.WellFormed
  listeners : d.listeners.Proper
  live : ∀ r ∈ d.listeners.nodes, d.store.Live r

/-- A well-formed document without listeners. -/
theorem whole_of_over (h : d.Over {} Store.WellFormed) : d.Whole where
  store := h.store
  listeners := by
    rw [h.listeners]
    exact ⟨List.nodup_nil, by simp⟩
  live := by simp [h.listeners, Registry.nodes]

theorem whole_new : new.Whole := whole_of_over over_new

theorem over_empty : empty.Over {} Store.WellFormed := ⟨rfl, Store.wellFormed_new⟩

theorem over_finalize {P : Store → Prop} (h : d.Over g P) : d.finalize.Over g P := by
  unfold finalize
  split
  · exact ⟨h.listeners, h.store⟩
  · exact ⟨h.listeners, h.store⟩

/-- **The document of a text is well formed and has no listeners.** -/
theorem over_ofHtml {html : String} (h : ofHtml html = .ok d) : d.Over {} Store.WellFormed := by
  have hroot : NodeRef.root ∉ Store.refsOf [] := by simp [Store.refsOf]
  have hplant : ∀ f : Forest Markup.Item, Ends (Store.plantEach (Store.appendChild .root) (Markup.image f))
      empty.store (fun rs s => s.Guards [] [] ∧ ∀ r ∈ rs, r ∉ Store.refsOf []) (Store.Guards [] []) :=
    fun f => Store.Guards.plantEach (fun r s hr hs => hs.insertBefore hroot hr none)
      (Markup.plantables_image f) Store.wellFormed_new.guards
  replace hplant := hplant (Markup.parseDocument html)
  unfold Ends at hplant
  unfold ofHtml ofMarkup at h
  split at h
  · rename_i rs s hs
    rw [hs] at hplant
    obtain rfl := Except.ok.inj h
    exact over_finalize ⟨rfl, hplant.1.wellFormed⟩
  · exact absurd h (by simp)

end Document

end DomHost
