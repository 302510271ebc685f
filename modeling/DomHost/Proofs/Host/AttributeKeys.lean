import DomHost.Proofs.Document.Style
import DomHost.Proofs.Host.Elements
import DomHost.Proofs.Scene.AttributeKeys

/-!
# The keys of attributes in runs

Elements that are created, read, described or copied have no two attributes with one key, and no call and no
instruction gives them any. Only an element that is inserted as it is can bring two.

* `Document.fits_brought_iff`: nodes that calls read or insert;
* **`Host.keyedOnce_moments`**: attributes by their keys, at every moment, and as instructions set and remove them;
* `Host.exists_keyedOnce`: an attribute that is written by two qualified names.
-/

namespace DomHost

/-- What holds of all that is read holds of what calls bring just if it holds of the nodes they insert as they are. -/
theorem Document.fits_brought_iff {P : Element → Prop} (hread : ∀ f, ∀ x ∈ (Markup.image f).toList, x.Fits P)
    (d : Document) (edits : List Edit) :
    (∀ data ∈ d.brought edits, data.Fits P) ↔
      ∀ o, Edit.build o ∈ edits → ∀ data ∈ o.inserted, data.Fits P := by
  induction edits generalizing d with
  | nil => simp [brought]
  | cons x rest ih =>
    have hbrings : (∀ data ∈ x.brings d, data.Fits P) ↔
        ∀ o, Edit.build o = x → ∀ data ∈ o.inserted, data.Fits P := by
      cases x with
      | build o => simp [Edit.brings]
      | addFragment context html => exact iff_of_true (fits_written hread d context html) (by simp)
      | _ => simp [Edit.brings]
    simp only [brought, List.forall_mem_append, hbrings, ih, List.mem_cons, or_imp, forall_and]

namespace Host

variable {κ : Type} {d : Document} {o : Document.Origin}

/-- **Attributes are a map keyed by namespace and local name.** Whatever calls edit a document, no element has two
attributes with one key at any time, unless an element that has is inserted as it is; and at no moment of a run there
is one. An instruction that succeeds in setting an attribute gives one key its value, and the instruction that removes
the attribute with this name leaves what the element had under other keys. -/
theorem keyedOnce_moments (hd : o.document = .ok d) :
    (∀ edits, (∀ d' ∈ d.history edits, ∀ r e, d'.store.element? r = some e → e.KeyedOnce) ↔
      ∀ x, Document.Edit.build x ∈ edits → ∀ data ∈ x.inserted, data.Fits Element.KeyedOnce) ∧
    (∀ buffer delegates calls, ∀ s ∈ (opened d buffer delegates).moments calls, ∀ r e,
      s.store.element? r = some e → e.KeyedOnce) ∧
    (∀ e : Element, e.KeyedOnce →
      (∀ a, (e.setAttr a).KeyedOnce) ∧ ∀ ns localName, (e.removeAttr ns localName).KeyedOnce) ∧
    ∀ (s t : Scene κ) id name value ns, Scene.execute (.setAttribute id name value ns) s = .ok () t →
      ∃ r e e', s.bindings.get? id = some r ∧ s.store.element? r = some e ∧
        t = s.withStore (s.store.setData r (.element e')) ∧ e.Sets (Store.attributeKey e name ns) value e' ∧
        Scene.execute (.removeAttribute id name ns) t = .ok () (s.withStore (s.store.setData r
          (.element { e with attributes := e.attributes.filter (·.key ≠ Store.attributeKey e name ns) }))) := by
  have hP := Element.steady_keyedOnce
  have hread := Markup.keyedOnce_image
  have hover := Document.Origin.over_document hd
  refine ⟨fun edits => ?_, fun buffer delegates calls s hs r e he => ?_, fun e he => ?_,
    fun s t id name value ns h => ?_⟩
  · have hmade : d.store.Every Element.KeyedOnce :=
      (Document.Origin.every_iff hd).mpr (o.fits_nodes (hP.robust hread))
    rw [← Document.fits_brought_iff hread d edits,
      ← and_iff_right (b := ∀ data ∈ d.brought edits, data.Fits Element.KeyedOnce) hmade,
      ← Document.every_history_iff_of_steady hP]
    exact forall₂_congr fun d' hd' => (Document.wellFormed_of_mem_history hover.store hd').distinct.every_iff.symm
  · have hjudge : Scene.Judges (κ := Reaction) Element.KeyedOnce fun _ _ => True := fun s hs i =>
      iff_of_true (fun e he => Scene.fits_written hP hs he) trivial
    have hall := (every_moments_iff (hP.robust hread) hjudge hd buffer delegates calls).mpr fun _ _ => trivial
    exact (hall s hs).element he
  · exact ⟨he.setAttr, fun ns localName => hP.removeAttr e ns localName he⟩
  · exact Scene.exists_sets h

/-- A start tag writes an attribute twice, and calls set it by other names. In a run an attribute in a namespace is
written again with another qualifier, and removed. -/
theorem exists_keyedOnce :
    let xlink := "http://www.w3.org/1999/xlink"
    let edits : List Document.Edit := [.setAttribute (.cell 4 0) "Title" "c", .build (.cloneSubtree (.cell 4 0)),
      .setAttributeNs (.cell 6 0) (some "") "Title" "d", .toggleAttribute (.cell 6 0) "hidden" none]
    let run := Instruction.encodeAll [.createElement ⟨1⟩ "use" (some svgNs), .setAttribute ⟨1⟩ "href" "#a" none,
      .setAttribute ⟨1⟩ "xlink:href" "#b" (some xlink)]
    ∃ d s t e e', Document.Origin.document (.html "<p title='a' TITLE='b'>x</p>") = .ok d ∧
      (∀ d' ∈ d.history edits, ∀ r e, d'.store.element? r = some e → e.KeyedOnce) ∧
      (((edits.foldl Document.Edit.apply d).store.element? (.cell 6 0)).map (·.keys) =
        some [(none, "title"), (none, "Title"), (none, "hidden")]) ∧
      s ∈ (opened d { bytes := run.toArray, maxPages := 1 } true).moments [.applyEdits 0 run.length] ∧
      Scene.execute (.setAttribute ⟨1⟩ "x:href" "#c" (some xlink)) s = .ok () t ∧
      s.store.element? (.cell 6 0) = some e ∧ e.KeyedOnce ∧ e.Sets (some xlink, "href") "#c" e' ∧
      e'.attributes = [.plain "href" "#a", ⟨"href", some "xlink", some xlink, "#c"⟩] ∧
      Scene.execute (.removeAttribute ⟨1⟩ "x:href" (some xlink)) t =
        .ok () (s.withStore (s.store.setData (.cell 6 0)
          (.element { e with attributes := [.plain "href" "#a"] }))) := by
  intro xlink edits run
  let buffer : SharedBuffer := { bytes := run.toArray, maxPages := 1 }
  let last (d : Document) : Scene Reaction :=
    ([Call.applyEdits 0 run.length].foldl Call.apply (opened d buffer true)).scene
  let used : Element :=
    ⟨"use", none, some svgNs, [.plain "href" "#a", ⟨"href", some "xlink", some xlink, "#b"⟩], [], {}⟩
  let set : SceneM Reaction Unit := Scene.execute (.setAttribute ⟨1⟩ "x:href" "#c" (some xlink))
  have hall : (Document.Origin.document (.html "<p title='a' TITLE='b'>x</p>")).toOption.any (fun d => decide
      (((edits.foldl Document.Edit.apply d).store.element? (.cell 6 0)).map (·.keys) =
          some [(none, "title"), (none, "Title"), (none, "hidden")] ∧
        (last d).bindings.get? ⟨1⟩ = some (.cell 6 0) ∧ (last d).store.element? (.cell 6 0) = some used ∧
        (final? set (last d)).any (fun t => decide ((t.store.element? (.cell 6 0)).map (·.attributes) =
          some [.plain "href" "#a", ⟨"href", some "xlink", some xlink, "#c"⟩])) = true)) = true := by decide +kernel
  obtain ⟨d, hd, hrun⟩ := exists_of_toOption hall
  obtain ⟨hkeys, hbound, hused, hset⟩ := of_decide_eq_true hrun
  obtain ⟨u, t, hset, ht⟩ := exists_of_final? hset
  obtain ⟨hedits, hmoments, -, hsets⟩ := keyedOnce_moments (κ := Reaction) hd
  obtain ⟨r, e, e', hr, he, rfl, hsets, hremove⟩ := hsets _ _ _ _ _ _ hset
  obtain rfl : r = .cell 6 0 := Option.some.inj (hr.symm.trans hbound)
  obtain rfl : e = used := Option.some.inj (he.symm.trans hused)
  have hlast := scene_foldl_apply_mem_moments (opened d buffer true) [.applyEdits 0 run.length]
  have hattributes : e'.attributes = [.plain "href" "#a", ⟨"href", some "xlink", some xlink, "#c"⟩] := by
    have hnew : ((last d).store.setData (.cell 6 0) (.element e')).element? (.cell 6 0) = some e' := by
      rw [Store.element?_eq_some_iff, Store.get?_setData, if_pos rfl, Store.element?_eq_some_iff.mp he]
      rfl
    rw [Scene.store_withStore, hnew] at ht
    exact Option.some.inj (of_decide_eq_true ht)
  refine ⟨d, _, _, _, e', hd, (hedits edits).mpr fun x hx => ?_, hkeys, hlast, hset, he,
    hmoments _ _ _ _ hlast _ _ he, hsets, hattributes, hremove⟩
  have hx : x = .cloneSubtree (.cell 4 0) := by simpa [edits] using hx
  subst hx
  exact fun data hdata => absurd hdata List.not_mem_nil

end Host

end DomHost
