import DomHost.Proofs.Host.Elements
import DomHost.Proofs.Host.Redefinition
import DomHost.Proofs.Scene.Styling

/-!
# The attribute `style` in runs

What is read has its declarations in one place, and what is described without namespaces has none. So the start tags
of a run show one attribute `style` at most, until an instruction fills the other place.

* **`Host.styledOnce_moments_iff`**: when every start tag has one attribute `style` at most at every moment;
* **`Host.exists_second_style`**: an element whose style is set and then declared.
-/

namespace DomHost.Host

variable {d : Document} {o : Document.Origin}

/-- **In every run every element outside all namespaces has one attribute `style` at most at every moment exactly if
no instruction that is carried out adds a second one.** A template does so only with attributes in namespaces. The
attributes are those that the text of the element shows. -/
theorem styledOnce_moments_iff (hd : o.document = .ok d) (buffer : SharedBuffer) (delegates : Bool)
    (calls : List Call) :
    ((∀ s ∈ (opened d buffer delegates).moments calls, ∀ r e, s.store.element? r = some e → e.ns = none →
        e.styles ≤ 1) ↔
      ∀ x ∈ (opened d buffer delegates).steps calls, ¬ x.1.Doubles x.2) ∧
    (∀ (s : Scene Reaction) number ds, (∀ d ∈ ds, d.NoNamespaces) → ¬ s.Doubles (.saveTemplate number ds)) ∧
    ∀ s ∈ (opened d buffer delegates).moments calls, ∀ r e, s.store.element? r = some e →
      ∃ rest, s.document.outerHtml r = "<" ++ e.qualifiedName ++
        String.join (e.written.map fun w => Html.attributeText w.1 w.2) ++ ">" ++ rest := by
  have hover := Document.Origin.over_document hd
  refine ⟨?_, fun s number _ => s.not_doubles_saveTemplate number, ?_⟩
  · rw [← every_moments_iff Element.robust_styledOnce (fun _ => Scene.forall_written_iff) hd buffer delegates calls]
    refine forall₂_congr fun s hs => ?_
    have hcoherent := coherent_of_mem_moments hover.store hover.listeners buffer delegates hs
    exact hcoherent.wellFormed.distinct.every_iff.symm
  · intro s _ r e he
    rw [← Html.startTag_eq]
    exact Document.exists_outerHtml_eq he

/-- Elements that are read, described and created each get their style in one place, and one of them again. -/
theorem exists_styledOnce : ∃ (d : Document) (calls : List Call) (s : Scene Reaction) (e : Element) (rest : String),
    Document.Origin.document (.html "<p style='top: 0'>x</p>") = .ok d ∧ calls.length = 3 ∧
    s ∈ (opened d (.new 1 1) true).moments calls ∧ s.store.element? (.cell 9 0) = some e ∧ e.ns = none ∧
    (∀ s ∈ (opened d (.new 1 1) true).moments calls, ∀ r e, s.store.element? r = some e → e.ns = none →
      e.styles ≤ 1) ∧
    e.styles = 1 ∧ s.document.outerHtml (.cell 9 0) = "<div style=\"left: 0\" title=\"x\">" ++ rest := by
  let edits := Instruction.encodeAll [.createElement ⟨1⟩ "div" none, .setStyle ⟨1⟩ "color" "red",
    .setStyle ⟨1⟩ "color" "blue", .loadTemplate 1 ⟨2⟩ [⟨3⟩], .setAttribute ⟨2⟩ "title" "x" none]
  let ds : List Descriptor := [.element "div" none [⟨"style", "left: 0", none⟩] 1 false, .dynamicText]
  let calls : List Call := [.saveTemplate 1 ds, .changeMemory { bytes := edits.toArray, maxPages := 1 },
    .applyEdits 0 edits.length]
  let styled : Element := ⟨"div", none, none, [.plain "style" "left: 0", .plain "title" "x"], [], {}⟩
  have hall : (Document.Origin.document (.html "<p style='top: 0'>x</p>")).toOption.any (fun d => decide
      ((∀ x ∈ (opened d (.new 1 1) true).steps calls, ¬ x.1.Doubles x.2) ∧
        (calls.foldl Call.apply (opened d (.new 1 1) true)).scene.store.element? (.cell 9 0) = some styled)) =
      true := by decide +kernel
  obtain ⟨d, hd, hrun⟩ := exists_of_toOption hall
  obtain ⟨hnone, he⟩ := of_decide_eq_true hrun
  obtain ⟨hiff, -, hhtml⟩ := styledOnce_moments_iff hd (.new 1 1) true calls
  have hlast := scene_foldl_apply_mem_moments (opened d (.new 1 1) true) calls
  obtain ⟨rest, hrest⟩ := hhtml _ hlast _ _ he
  have htag : "<" ++ styled.qualifiedName ++ String.join (styled.written.map fun w => Html.attributeText w.1 w.2) ++
      ">" = "<div style=\"left: 0\" title=\"x\">" := by decide +kernel
  exact ⟨d, calls, _, styled, rest, hd, rfl, hlast, he, rfl, hiff.mpr hnone, by decide,
    hrest.trans (congrArg (· ++ rest) htag)⟩

/-- **A second attribute `style`**: it is set on an element, and then a property is declared. -/
theorem exists_second_style :
    let edits := Instruction.encodeAll [.createElement ⟨1⟩ "div" none, .setAttribute ⟨1⟩ "style" "color:red" none,
      .setStyle ⟨1⟩ "color" "blue"]
    let buffer : SharedBuffer := { bytes := edits.toArray, maxPages := 1 }
    ∃ s ∈ (opened .new buffer true).moments [.applyEdits 0 edits.length], ∃ e,
      s.store.element? (.cell 4 0) = some e ∧ e.ns = none ∧ e.styles = 2 ∧
      s.document.outerHtml (.cell 4 0) = "<div style=\"color:red\" style=\"color: blue;\"></div>" := by
  intro edits buffer
  let twice : Element := ⟨"div", none, none, [.plain "style" "color:red"], [("color", "blue")], {}⟩
  have hlast := scene_foldl_apply_mem_moments (opened .new buffer true) [.applyEdits 0 edits.length]
  refine ⟨_, hlast, twice, ?_, rfl, by decide, ?_⟩
  · decide +kernel
  · decide +kernel

end DomHost.Host
