import DomHost.Proofs.Document
import DomHost.Proofs.Forest.Trees

/-!
# Checks before effects

An operation that may fail is cautious when nothing has changed where it fails. It is so when its checks come
first, and what follows the first effect cannot fail.

* `Succeeds`, `Cautious`: operations that do not fail, or fail without an effect;
* **`Cautious.check`**, **`Cautious.surely`**: a check in front, and what cannot fail behind;
* `Store.cautious_updateElement`, `Store.cautious_toggleAttribute` and others: contents of elements;
* `Store.succeeds_setTextContent`, `Document.succeeds_select`: operations on live nodes that do not fail;
* **`Document.cautious_setProperty`**: assigned properties.
-/

namespace DomHost

variable {ε σ α β : Type} {x : EStateM ε σ α} {f : α → EStateM ε σ β} {s : σ}

/-- Started in a state, an operation does not fail. -/
def Succeeds (x : EStateM ε σ α) (s : σ) : Prop := Ends x s (fun _ _ => True) fun _ => False

/-- Started in a state, an operation does not fail after its first effect. -/
def Cautious (x : EStateM ε σ α) (s : σ) : Prop := Ends x s (fun _ _ => True) (· = s)

theorem Succeeds.of_ok {a : α} {t : σ} (h : x s = .ok a t) : Succeeds x s := Ends.of_eq h trivial

theorem Succeeds.cautious (h : Succeeds x s) : Cautious x s := h.mono (fun _ _ h => h) fun _ he => he.elim

namespace Cautious

/-- **A check goes in front of something cautious.** -/
theorem check {P : α → Prop} (hx : Ends x s (fun a t => t = s ∧ P a) (· = s))
    (hf : ∀ a, P a → Cautious (f a) s) : Cautious (x >>= f) s := by
  refine Ends.bind hx ?_
  rintro a t ⟨rfl, ha⟩
  exact hf a ha

/-- **Something cautious goes in front of what cannot fail any more.** -/
theorem surely {R : α → σ → Prop} (hx : Ends x s R (· = s)) (hf : ∀ a t, R a t → Succeeds (f a) t) :
    Cautious (x >>= f) s :=
  Ends.bind hx fun a t ht => (hf a t ht).mono (fun _ _ h => h) fun _ he => he.elim

theorem discard (h : Cautious x s) : Cautious (discard x) s :=
  (Ends.discard h).mono (fun _ _ _ => trivial) fun _ he => he

end Cautious

theorem ends_liftResult_same (r : Except ε α) (s : σ) :
    Ends (liftResult r : EStateM ε σ α) s (fun a t => t = s ∧ r = .ok a) (· = s) :=
  Ends.liftResult (fun _ ha => ⟨rfl, ha⟩) rfl

/-! ## Contents of elements -/

namespace Store

variable {s : Store} {r x : NodeRef}

/-- A node that becomes another one is found with its new data, also among the children of others. -/
theorem tree?_setData (s : Store) (r x : NodeRef) (data : NodeData) :
    (s.setData r data).tree? x = (s.tree? x).map fun t =>
      (if is r t.1 then { t.1 with data } else t.1, t.2.relabel (is r) fun n => { n with data }) :=
  Forest.find?_relabel fun _ => rfl

theorem get?_setData (s : Store) (r x : NodeRef) (data : NodeData) :
    (s.setData r data).get? x = if x = r then (s.get? x).map fun _ => data else s.get? x := by
  rw [get?, tree?_setData, Option.map_map]
  cases ht : s.tree? x with
  | none => simp [get?, ht]
  | some t =>
    have href := (mem_trees_of_tree? ht).2
    by_cases hx : x = r
    · subst hx
      simp [get?, ht, is, href]
    · simp [get?, ht, is, href, hx]

/-- A live element is changed. -/
theorem updateElement_of_get? {e : Element} (h : s.get? r = some (.element e)) (f : Element → Element) :
    updateElement r f s = .ok () (s.setData r (.element (f e))) := by
  have helement : requireElement r s = .ok e s := by
    unfold requireElement
    rw [bind_of_ok (require_of_get? h)]
    rfl
  unfold updateElement
  rw [bind_of_ok helement]
  rfl

theorem cautious_updateElement (r : NodeRef) (f : Element → Element) (s : Store) :
    Cautious (updateElement r f) s :=
  .check (ends_requireElement s r) fun _ _ => Ends.modify trivial

theorem cautious_setAttribute (r : NodeRef) (name value : String) (s : Store) :
    Cautious (setAttribute r name value) s :=
  .check (ends_liftResult_same _ s) fun _ _ => cautious_updateElement r _ s

theorem cautious_setAttributeNs (r : NodeRef) (ns : Option String) (name value : String) (s : Store) :
    Cautious (setAttributeNs r ns name value) s :=
  .check (ends_liftResult_same _ s) fun _ _ => cautious_updateElement r _ s

theorem cautious_toggleAttribute (r : NodeRef) (name : String) (force : Option Bool) (s : Store) :
    Cautious (toggleAttribute r name force) s := by
  refine .check (ends_liftResult_same _ s) fun _ _ => .check (ends_requireElement s r) fun e _ => ?_
  refine Ends.ite (fun _ => ?_) fun _ => Ends.ite (fun _ => ?_) fun _ => Ends.pure trivial
  · exact Cautious.surely (cautious_setAttribute r name "" s) fun _ _ _ => Ends.pure trivial
  · exact Cautious.surely (cautious_updateElement r _ s) fun _ _ _ => Ends.pure trivial

/-- The text of a live node is replaced. -/
theorem succeeds_setTextContent (h : s.Live r) (text : String) : Succeeds (setTextContent r text) s := by
  unfold setTextContent
  refine ((ends_require_live s r).mono (fun _ _ he => he) fun _ he => he.2 h).bind ?_
  rintro d s ⟨rfl, -⟩
  cases d with
  | text t => exact Ends.modify trivial
  | comment t => exact Ends.modify trivial
  | document => exact Ends.pure trivial
  | element e =>
    refine (Ends.modify (Q := fun _ _ => True) trivial).bind fun _ _ _ => ?_
    exact Ends.ite (fun _ => Ends.pure trivial) fun _ =>
      (Ends.modifyGet (Q := fun _ _ => True) trivial).bind fun _ _ _ => Ends.modify trivial

end Store

/-! ## Properties -/

namespace Document

variable {d : Document}

/-- An operation on the store leaves the rest of the document alone. -/
theorem ends_onStore_with {α : Type} {x : StoreM α} {Q : α → Store → Prop} {E : Store → Prop}
    (h : Ends x d.store Q E) :
    Ends (onStore x) d (fun a d' => ∃ s, d' = { d with store := s } ∧ Q a s)
      fun d' => ∃ s, d' = { d with store := s } ∧ E s := by
  unfold Ends at h
  unfold Ends onStore
  cases hx : x d.store with
  | ok a s =>
    rw [hx] at h
    exact ⟨s, rfl, h⟩
  | error e s =>
    rw [hx] at h
    exact ⟨s, rfl, h⟩

theorem cautious_onStore {α : Type} {x : StoreM α} (h : Cautious x d.store) : Cautious (onStore x) d :=
  (ends_onStore_with h).mono (fun _ _ _ => trivial) fun _ ⟨_, hd, hs⟩ => by rw [hd, hs]

theorem ends_onStore_check {α : Type} {x : StoreM α} {P : α → Prop}
    (h : Ends x d.store (fun a s => s = d.store ∧ P a) (· = d.store)) :
    Ends (onStore x) d (fun a d' => d' = d ∧ P a) (· = d) :=
  (ends_onStore_with h).mono (fun _ _ ⟨_, hd, hs, ha⟩ => ⟨by rw [hd, hs], ha⟩)
    fun _ ⟨_, hd, hs⟩ => by rw [hd, hs]

/-- **The options of a choice are marked, as long as they are elements.** -/
theorem succeeds_select {options : List NodeRef}
    (h : ∀ o ∈ options, ∃ e, d.store.get? o = some (.element e)) (value : String) (matched : Bool) :
    Succeeds (select value options matched) d := by
  induction options generalizing d matched with
  | nil => exact Ends.pure trivial
  | cons o rest ih =>
    obtain ⟨⟨e, he⟩, hrest⟩ := List.forall_mem_cons.mp h
    unfold select
    refine Ends.get_bind ?_
    refine (Ends.of_eq (Q := fun _ t => t = _) (onStore_of_ok (Store.updateElement_of_get? he _)) rfl).bind ?_
    rintro _ _ rfl
    refine ih (fun o' ho' => ?_) _
    rw [Store.get?_setData]
    obtain ⟨e', he'⟩ := hrest o' ho'
    split
    · exact ⟨_, by rw [he']; rfl⟩
    · exact ⟨e', he'⟩

theorem get?_of_mem_options {r o : NodeRef} (h : o ∈ d.options r) : ∃ e, d.store.get? o = some (.element e) := by
  have hkind := (List.mem_filter.mp h).2
  rw [beq_iff_eq, kind?, Option.map_eq_some_iff] at hkind
  obtain ⟨e, he, -⟩ := hkind
  obtain ⟨data, hd, he⟩ := Option.bind_eq_some_iff.mp he
  cases data with
  | element e => exact ⟨e, hd⟩
  | _ => exact absurd he (by simp [NodeData.element?])

theorem cautious_setValue (r : NodeRef) (value : String) (d : Document) : Cautious (setValue r value) d := by
  refine .check (ends_onStore_check (Store.ends_requireElement d.store r)) fun e _ => ?_
  split
  · exact cautious_onStore (Store.cautious_updateElement r _ _)
  · exact cautious_onStore (Store.cautious_updateElement r _ _)
  · exact Ends.get_bind (succeeds_select (fun _ => get?_of_mem_options) value false).cautious
  all_goals exact cautious_onStore (Store.cautious_setAttribute r "value" value _)

/-- **A property is assigned after all checks.** -/
theorem cautious_setProperty {r : NodeRef} (hr : d.store.Live r) (property : Property) (value : String) :
    Cautious (setProperty r property value) d := by
  cases property with
  | className => exact cautious_onStore (Store.cautious_setAttribute r "class" value _)
  | textContent => exact cautious_onStore (Store.succeeds_setTextContent hr value).cautious
  | value => exact cautious_setValue r value d
  | checked => exact cautious_onStore (Store.cautious_updateElement r _ _)
  | innerHtml => exact Ends.throw rfl

end Document

end DomHost
