import DomHost.Proofs.Host.Attended
import DomHost.Proofs.Scene.TextContent

/-!
# Texts that are assigned in a run

In every run a text that is assigned through an id leads to what the document makes of the text itself, less the
nodes that gave way to it. The exception is the document node: as long as it has children, the instruction frees
them all, where the document would keep them.

* **`Host.textAgrees_foldl_apply`**: when both ways to assign a text end alike;
* `Host.exists_textAgrees`: a text that gives way to another one;
* **`Host.exists_emptied_document`**: a document that is emptied by the instruction alone.
-/

namespace DomHost.Host

variable {d : Document} {calls : List Call} {id : NodeId} {r : NodeRef}

/-- **In every run a text is assigned alike through an id and on the document, unless the node is the document and
has children.** -/
theorem textAgrees_foldl_apply (hd : d.store.WellFormed) (hl : d.listeners = {}) (buffer : SharedBuffer)
    (delegates : Bool) (hid : (calls.foldl Call.apply (opened d buffer delegates)).scene.bindings.get? id = some r)
    (text : String) :
    (calls.foldl Call.apply (opened d buffer delegates)).scene.TextAgrees id r text ↔
      (r = .root → (calls.foldl Call.apply (opened d buffer delegates)).scene.store.children .root = []) :=
  have hc := (staffed_foldl_apply hd hl buffer delegates calls).coherent
  Scene.textAgrees_iff hc.document hc.bindings hid text

/-- An element in the body has a text with an id and a listener, and is given another text. -/
theorem exists_textAgrees :
    let edits := Instruction.encodeAll [.createElement ⟨1⟩ "div" none, .createText ⟨2⟩ "a & b",
      .appendChildren ⟨1⟩ [⟨2⟩], .appendChildren .root [⟨1⟩]]
    let calls : List Call := [.start (.cell 3 0) [],
      .changeMemory { bytes := edits.toArray, maxPages := 1 }, .applyEdits 0 edits.length]
    let s := (calls.foldl Call.apply (opened .new (.new 1 1) true)).scene
    s.bindings.get? ⟨1⟩ = some (.cell 4 0) ∧ s.bindings.get? ⟨2⟩ = some (.cell 5 0) ∧
      s.store.below (.cell 4 0) = [.cell 5 0] ∧ s.TextAgrees ⟨1⟩ (.cell 4 0) "c" := by
  intro edits calls s
  obtain ⟨hid, htext, hbelow⟩ : s.bindings.get? ⟨1⟩ = some (.cell 4 0) ∧ s.bindings.get? ⟨2⟩ = some (.cell 5 0) ∧
      s.store.below (.cell 4 0) = [.cell 5 0] := by decide +kernel
  have hagrees := (textAgrees_foldl_apply Document.over_new.store rfl (.new 1 1) true hid "c").mpr nofun
  exact ⟨hid, htext, hbelow, hagrees⟩

/-- **The document is started as a scope and given a text.** Asked directly it stays as it is; through the id it
loses all its elements. -/
theorem exists_emptied_document :
    let calls : List Call := [.start .root []]
    let s := (calls.foldl Call.apply (opened .new (.new 1 1) true)).scene
    s.bindings.get? .root = some .root ∧
      Document.setProperty .root .textContent "x" s.document = .ok () s.document ∧
      s.document.outerHtml .root = "<html><head></head><body></body></html>" ∧
      (∃ t, Scene.execute (.setProperty .root .textContent "x") s = .ok () t ∧ t.document.outerHtml .root = "") ∧
      ¬ s.TextAgrees .root .root "x" := by
  intro calls s
  have hc := (staffed_foldl_apply Document.over_new.store rfl (.new 1 1) true calls).coherent
  obtain ⟨hid, hget, hchildren, hhtml, hempty⟩ : s.bindings.get? .root = some .root ∧
      s.store.get? .root = some .document ∧ s.store.children .root ≠ [] ∧
      s.document.outerHtml .root = "<html><head></head><body></body></html>" ∧
      (s.emptied .root).document.outerHtml .root = "" := by decide +kernel
  obtain ⟨c, ht⟩ := Store.exists_tree?_of_get? hget
  have hdirect := Document.setProperty_text_of_document (d := s.document) hget "x"
  have hexecute := Scene.execute_text_of_document (s := s) hc.document hid ht rfl "x"
  have hdiffer : ¬ s.TextAgrees .root .root "x" :=
    (Scene.textAgrees_document_iff (s := s) hc.document hid ht rfl).not.mpr hchildren
  exact ⟨hid, hdirect, hhtml, ⟨s.emptied .root, hexecute, hempty⟩, hdiffer⟩

end DomHost.Host
