import DomHost.Markup.Convert
import DomHost.Proofs.Store.AttributeKeys
import DomHost.Proofs.Store.Sprouts

/-!
# Parsed trees that are converted

Trees that wait on a stack are converted in document order, and what is on top of the others sprouts under its node
before the next one is looked at. So the whole stack empties as if each tree had been planted at once, and a tree
becomes the same nodes as by recursion.

* `Markup.growable_imageOf`, `Markup.toList_imageOf`: the nodes that trees become;
* **`Markup.convertWaiting_pushAll`**: trees that wait under one node;
* `Markup.convert_eq`, `Markup.convertEach_eq`: whole trees;
* `Markup.imageOf_map_toPiece`: the pieces that items are;
* `Piece.Mirrors`, `Piece.exists_mirrors`: the element that a piece becomes;
* **`Markup.convert_plants`**: a tree that is converted.
-/

namespace DomHost.Markup

variable {s : Store} {i : Piece} {c k : Forest Piece} {d : NodeData} {p r : NodeRef}

/-! ## Images -/

theorem Piece.isDocument_of_data? (h : i.data? = some d) : d.isDocument = false := by
  cases i <;> cases h <;> rfl

theorem Piece.isElement_of_data? (h : i.data? = some d) : d.isElement = i.isElement := by
  cases i <;> cases h <;> rfl

/-- The nodes that come under the node of a piece. -/
def imageBelow (i : Piece) (c : Forest Piece) : Forest NodeData := if i.isElement then imageOf c else .nil

theorem imageOf_of_some (h : i.data? = some d) (c n : Forest Piece) :
    imageOf (.node i c n) = .node d (imageBelow i c) (imageOf n) := by
  rw [imageOf, h]
  rfl

theorem imageOf_of_none (h : i.data? = none) (c n : Forest Piece) : imageOf (.node i c n) = imageOf n := by
  rw [imageOf, h]

/-- Only elements have something below them. -/
theorem isElement_of_imageBelow (h : imageBelow i c ≠ .nil) : i.isElement = true := by
  by_contra hi
  exact h (if_neg hi)

theorem plantable_imageBelow (h : i.data? = some d) (hc : Store.Growable (imageOf c)) :
    Store.Plantable d (imageBelow i c) := by
  have hgrow : Store.Growable (imageBelow i c) := by
    unfold imageBelow
    split
    · exact hc
    · exact ⟨trivial, fun _ hx => absurd hx List.not_mem_nil⟩
  refine ⟨⟨fun hne => ?_, hgrow.1, trivial⟩, List.forall_mem_cons.mpr ⟨Piece.isDocument_of_data? h, hgrow.2⟩⟩
  have he : d.isElement = true := (Piece.isElement_of_data? h).trans (isElement_of_imageBelow hne)
  cases d <;> first | rfl | cases he

theorem growable_imageOf (f : Forest Piece) : Store.Growable (imageOf f) := by
  induction f with
  | nil => exact ⟨trivial, fun _ hx => absurd hx List.not_mem_nil⟩
  | node i c n ihc ihn =>
    cases hd : i.data? with
    | none => rw [imageOf_of_none hd]; exact ihn
    | some d =>
      rw [imageOf_of_some hd]
      exact Store.growable_node_iff.mpr ⟨plantable_imageBelow hd ihc, ihn⟩

/-- **Where only elements have children, nothing is lost but pieces without a counterpart**, and the rest is in
document order. -/
theorem toList_imageOf {f : Forest Piece} (h : f.BearsOnly fun i => i.isElement = true) :
    (imageOf f).toList = f.toList.filterMap (·.data?) := by
  induction f with
  | nil => rfl
  | node i c n ihc ihn =>
    obtain ⟨hi, hc, hn⟩ := h
    rw [Forest.toList_node, List.filterMap_cons, List.filterMap_append, ← ihc hc, ← ihn hn]
    cases hd : i.data? with
    | none =>
      have hnil : c = .nil := by
        by_contra hne
        have he := hi hne
        cases i <;> cases he
        cases hd
      rw [imageOf_of_none hd, hnil]
      rfl
    | some d =>
      have hbelow : imageBelow i c = imageOf c := by
        by_cases hnil : c = .nil
        · rw [hnil, imageBelow, imageOf, ite_self]
        · exact if_pos (hi hnil)
      rw [imageOf_of_some hd, Forest.toList_node, hbelow]

/-! ## Piece by piece -/

theorem convertPiece_of_some (h : i.data? = some d) (s : Store) :
    convertPiece i s = .ok (some (s.create d).1) (s.create d).2 := by
  rw [convertPiece, h]
  rfl

theorem convertPiece_of_none (h : i.data? = none) (s : Store) : convertPiece i s = .ok none s := by
  rw [convertPiece, h]
  rfl

theorem convertWaiting_of_none (h : i.data? = none) (c : Forest Piece) (parent : NodeRef) (stack : List Waiting)
    (s : Store) : convertWaiting (((i, c), parent) :: stack) s = convertWaiting stack s := by
  rw [convertWaiting, bind_of_ok (convertPiece_of_none h s)]

/-- A piece on top of the stack becomes the last child of its parent, and the trees below it wait for that. -/
theorem convertWaiting_of_some (hs : s.WellFormed) (h : i.data? = some d) {e : Element}
    (hp : s.get? p = some (.element e)) (c : Forest Piece) (stack : List Waiting) :
    convertWaiting (((i, c), p) :: stack) s =
      convertWaiting (pushChildren (i, c) s.cells.draw.1 stack) (s.sprout p (.node d .nil .nil)) := by
  obtain ⟨happend, -⟩ := hs.append_create hp (Piece.isDocument_of_data? h)
  rw [convertWaiting, bind_of_ok (convertPiece_of_some h s)]
  exact bind_of_ok happend

/-- **Trees that wait under a node sprout there, in order, before anything else on the stack is converted.** -/
theorem convertWaiting_pushAll (hs : s.WellFormed) (hp : imageOf k ≠ .nil → ∃ e, s.get? p = some (.element e))
    (stack : List Waiting) :
    convertWaiting (pushAll p k stack) s = convertWaiting stack (s.sprout p (imageOf k)) := by
  induction k generalizing s p stack with
  | nil => rw [pushAll, imageOf, Store.sprout_nil]
  | node i c n ihc ihn =>
    rw [pushAll]
    cases hd : i.data? with
    | none =>
      rw [imageOf_of_none hd] at hp ⊢
      rw [convertWaiting_of_none hd, ihn hs hp]
    | some d =>
      rw [imageOf_of_some hd] at hp ⊢
      obtain ⟨e, he⟩ := hp (by simp)
      have hplant := plantable_imageBelow hd (growable_imageOf c)
      obtain ⟨-, hleaf, hnew⟩ := hs.append_create he (Piece.isDocument_of_data? hd)
      -- the trees below the new node come before those behind it
      have hbelow : convertWaiting (pushChildren (i, c) s.cells.draw.1 (pushAll p n stack))
            (s.sprout p (.node d .nil .nil)) =
          convertWaiting (pushAll p n stack)
            ((s.sprout p (.node d .nil .nil)).sprout s.cells.draw.1 (imageBelow i c)) := by
        unfold pushChildren imageBelow
        by_cases hi : i.isElement = true
        · rw [if_pos hi, if_pos hi]
          have hkids := hplant.exists_get? hnew
          rw [imageBelow, if_pos hi] at hkids
          exact ihc hleaf.wellFormed hkids _
        · rw [if_neg hi, if_neg hi, Store.sprout_nil]
      have hgrown := hleaf.trans (hleaf.wellFormed.grows_sprout (hplant.exists_get? hnew) hplant.growable)
      rw [convertWaiting_of_some hs hd he, hbelow, ihn hgrown.wellFormed fun _ => ⟨e, hgrown.get?_of_some he⟩,
        Store.sprout_node (hs.plant_notLive d .nil)]

/-! ## Whole trees -/

/-- **A tree is converted into the nodes that planting its image gives.** -/
theorem convert_eq (hs : s.WellFormed) (hd : i.data? = some d) (c : Forest Piece) :
    convert (i, c) s = .ok (some (s.plant d (imageBelow i c)).1) (s.plant d (imageBelow i c)).2 := by
  have hadd := hs.adds_create (Piece.isDocument_of_data? hd)
  have hkids := (plantable_imageBelow hd (growable_imageOf c)).exists_get? (s.get?_create d)
  have hbelow : convertWaiting (pushChildren (i, c) (s.create d).1 []) (s.create d).2 =
      .ok () (s.plant d (imageBelow i c)).2 := by
    rw [← Store.plant_eq_sprout hs]
    unfold pushChildren
    unfold imageBelow at hkids ⊢
    by_cases hi : i.isElement = true
    · rw [if_pos hi] at hkids ⊢
      rw [if_pos hi, convertWaiting_pushAll hadd.after hkids, convertWaiting]
      rfl
    · rw [if_neg hi, if_neg hi, Store.sprout_nil, convertWaiting]
      rfl
  unfold convert
  rw [bind_of_ok (convertPiece_of_some hd s)]
  exact bind_of_ok hbelow

theorem convert_of_none (h : i.data? = none) (c : Forest Piece) (s : Store) : convert (i, c) s = .ok none s := by
  unfold convert
  rw [bind_of_ok (convertPiece_of_none h s)]
  rfl

/-- **Trees are converted one after the other into the nodes that planting their images gives**, whatever is done with
each as soon as it is there. -/
theorem convertEach_eq {use : NodeRef → StoreM Unit}
    (huse : ∀ r s, s.WellFormed → Ends (use r) s (fun _ t => t.WellFormed) fun _ => True) (hs : s.WellFormed)
    (f : Forest Piece) : convertEach use f s = Store.plantEach use (imageOf f) s := by
  induction f generalizing s with
  | nil => rfl
  | node i c n _ ihn =>
    rw [convertEach]
    cases hd : i.data? with
    | none =>
      rw [imageOf_of_none hd, bind_of_ok (convert_of_none hd c s)]
      exact ihn hs
    | some d =>
      rw [imageOf_of_some hd, Store.plantEach, bind_of_ok (convert_eq hs hd c)]
      have hplant : (modifyGet (·.plant d (imageBelow i c)) : StoreM NodeRef) s =
          .ok (s.plant d (imageBelow i c)).1 (s.plant d (imageBelow i c)).2 := rfl
      have hw := hs.plant (plantable_imageBelow hd (growable_imageOf c))
      rw [bind_of_ok hplant]
      have hend := huse (s.plant d (imageBelow i c)).1 _ hw
      cases hrun : use (s.plant d (imageBelow i c)).1 (s.plant d (imageBelow i c)).2 with
      | error err t =>
        rw [bind_of_error hrun]
        exact bind_of_error hrun _
      | ok u t =>
        rw [bind_of_ok hrun]
        refine (bind_of_ok hrun).trans ?_
        exact bind_eq_of_eq (ihn (hend.ok hrun)) _

/-! ## Elements -/

namespace Piece

/-- What an element of a parsed tree becomes. -/
structure Mirrors (localName : String) (qualifier : Option String) (ns : String) (attributes : List PieceAttribute)
    (e : Element) : Prop where
  name : e.localName = localName ∧ e.qualifier = qualifier
  ns : e.ns = if ns = "" ∨ ns = htmlNs then none else some ns
  /-- The attribute `style` without namespace becomes declarations; the last one counts. -/
  style : e.style = ((attributes.filter (·.isStyle)).getLast?.map fun a => declarations a.value).getD []
  /-- Of several others with one key the last gives the value. -/
  value : ∀ ns localName, e.attrNs? ns localName =
    (attributes.filter fun a => !a.isStyle && a.toAttribute.key = (ns, localName)).getLast?.map (·.value)
  /-- The others are kept in order, if no two of them have the same key. -/
  attributes : ((attributes.filter (!·.isStyle)).map fun a => a.toAttribute.key).Nodup →
    e.attributes = (attributes.filter (!·.isStyle)).map (·.toAttribute)
  once : e.KeyedOnce
  control : e.control = {}

theorem foldl_writeAttr_eq_append {l : List PieceAttribute} {k : List Attribute}
    (h : (k.map (·.key) ++ l.map fun a => a.toAttribute.key).Nodup) :
    l.foldl (fun k a => Element.writeAttr a.toAttribute k) k = k ++ l.map (·.toAttribute) := by
  induction l generalizing k with
  | nil => simp
  | cons a l ih =>
    have hnew : a.toAttribute.key ∉ k.map (·.key) := fun hmem =>
      List.disjoint_of_nodup_append h hmem List.mem_cons_self
    rw [List.foldl_cons, Element.writeAttr_eq_append hnew, ih, List.map_cons, List.append_assoc]
    · rfl
    · simpa using h

/-- The attributes of an element are put on it in two rows: those that are written, and the last that declares. -/
theorem foldl_adorn (attributes : List PieceAttribute) (e : Element) :
    attributes.foldl PieceAttribute.adorn e =
      { e with
        attributes := (attributes.filter (!·.isStyle)).foldl (fun k a => Element.writeAttr a.toAttribute k) e.attributes
        style := ((attributes.filter (·.isStyle)).getLast?.map fun a => declarations a.value).getD e.style } := by
  induction attributes generalizing e with
  | nil => rfl
  | cons a l ih =>
    rw [List.foldl_cons, ih, PieceAttribute.adorn]
    cases ha : a.isStyle with
    | true =>
      have hlast : (((a :: l.filter (·.isStyle)).getLast?.map fun a => declarations a.value).getD e.style) =
          ((l.filter (·.isStyle)).getLast?.map fun a => declarations a.value).getD (declarations a.value) := by
        cases hrest : (l.filter (·.isStyle)).getLast? <;> simp [List.getLast?_cons, hrest]
      simp only [ha, if_true, List.filter_cons, Bool.not_true, hlast]
      rfl
    | false => simp [ha, Element.setAttr]

theorem keyedOnce_adorn {e : Element} (h : e.KeyedOnce) (a : PieceAttribute) : (a.adorn e).KeyedOnce := by
  unfold PieceAttribute.adorn
  split
  · exact h
  · exact h.setAttr a.toAttribute

theorem attrNs?_foldl_adorn (attributes : List PieceAttribute) {e : Element} (he : e.attributes = [])
    (ns : Option String) (localName : String) :
    (attributes.foldl PieceAttribute.adorn e).attrNs? ns localName =
      (attributes.filter fun a => !a.isStyle && a.toAttribute.key = (ns, localName)).getLast?.map (·.value) := by
  induction attributes using List.reverseRecOn with
  | nil => simp [Element.attrNs?, he]
  | append_singleton l a ih =>
    rw [List.foldl_concat, List.filter_append, PieceAttribute.adorn]
    cases ha : a.isStyle with
    | true =>
      rw [if_pos rfl]
      change (l.foldl PieceAttribute.adorn e).attrNs? ns localName = _
      rw [ih]
      simp [ha]
    | false =>
      have hvalue : a.toAttribute.value = a.value := rfl
      rw [if_neg Bool.false_ne_true, Element.attrNs?_setAttr, ih]
      by_cases hkey : a.toAttribute.key = (ns, localName)
      · simp [ha, hkey, hvalue]
      · simp [ha, hkey]

/-- **An element keeps its name and its attributes, and its style becomes declarations.** -/
theorem exists_mirrors (localName : String) (qualifier : Option String) (ns : String)
    (attributes : List PieceAttribute) :
    ∃ e, (element localName qualifier ns attributes).data? = some (.element e) ∧
      Mirrors localName qualifier ns attributes e := by
  let plain : Element := ⟨localName, qualifier, if ns = "" ∨ ns = htmlNs then none else some ns, [], [], {}⟩
  refine ⟨attributes.foldl PieceAttribute.adorn plain, rfl, ?_⟩
  have honce : (attributes.foldl PieceAttribute.adorn plain).KeyedOnce :=
    List.foldlRecOn attributes PieceAttribute.adorn List.nodup_nil fun _ he a _ => keyedOnce_adorn he a
  have hvalue := attrNs?_foldl_adorn attributes (e := plain) rfl
  rw [foldl_adorn] at honce hvalue ⊢
  exact ⟨⟨rfl, rfl⟩, rfl, rfl, hvalue, fun h => foldl_writeAttr_eq_append h, honce, rfl⟩

end Piece

/-! ## Items -/

theorem ReadAttribute.isEmpty_ns (a : ReadAttribute) : (a.ns.getD "").isEmpty = a.ns.isNone := by
  cases hns : a.ns with
  | none => rfl
  | some ns =>
    have hne : ns ≠ "" := fun he => a.spelled (hns.trans (congrArg some he))
    simpa [String.isEmpty_iff] using hne

theorem ReadAttribute.isStyle_toPiece (a : ReadAttribute) :
    a.toPiece.isStyle = decide (a.ns = none ∧ a.localName = "style") := by
  simp only [PieceAttribute.isStyle, toPiece, a.isEmpty_ns, Bool.decide_and, Bool.beq_eq_decide_eq]
  cases a.ns <;> simp

theorem ReadAttribute.toAttribute_toPiece (a : ReadAttribute) : a.toPiece.toAttribute = a.toAttribute := by
  have hns : (if (a.ns.getD "").isEmpty then none else some (a.ns.getD "")) = a.ns := by
    rw [a.isEmpty_ns]
    cases a.ns <;> rfl
  exact congrArg (fun ns => (⟨a.localName, a.qualifier, ns, a.value⟩ : Attribute)) hns

theorem adoptAttribute_eq (e : Element) (a : ReadAttribute) : adoptAttribute e a = a.toPiece.adorn e := by
  simp only [adoptAttribute, PieceAttribute.adorn, a.isStyle_toPiece, a.toAttribute_toPiece, decide_eq_true_eq]
  rfl

theorem data?_toPiece (i : Item) : i.toPiece.data? = i.data? := by
  cases i with
  | element localName qualifier ns attributes =>
    simp only [Item.toPiece, Piece.data?, Item.data?, List.foldl_map, ← adoptAttribute_eq]
  | _ => rfl

/-- Items become the nodes that their pieces become. -/
theorem imageOf_map_toPiece (f : Forest Item) : imageOf (f.map (·.toPiece)) = image f := by
  induction f with
  | nil => rfl
  | node i c n ihc ihn =>
    rw [Forest.map, image]
    cases hd : i.data? with
    | none => rw [imageOf_of_none ((data?_toPiece i).trans hd), ihn]
    | some d =>
      have hpiece := (data?_toPiece i).trans hd
      rw [imageOf_of_some hpiece, imageBelow, ← Piece.isElement_of_data? hpiece, ihc, ihn]

/-! ## The result -/

/-- **A parsed tree becomes new nodes of the same nesting and order**, whatever it is: its root, if it has a counterpart,
is a new detached node, and what was there before is as it was. The trees of all items are converted so. -/
theorem convert_plants (h : s.WellFormed) (i : Piece) (c : Forest Piece) :
    (∀ d, i.data? = some d → ∃ r t, convert (i, c) s = .ok (some r) t ∧ s.Plants d (imageBelow i c) r t ∧
      imageOf (.node i c .nil) = .node d (imageBelow i c) .nil) ∧
    (i.data? = none → convert (i, c) s = .ok none s) ∧
    ((Forest.node i c .nil).BearsOnly (fun i => i.isElement = true) →
      (imageOf (.node i c .nil)).toList = (i :: c.toList).filterMap (·.data?)) ∧
    (∀ localName qualifier ns attributes, ∃ e,
      (Piece.element localName qualifier ns attributes).data? = some (.element e) ∧
        Piece.Mirrors localName qualifier ns attributes e) ∧
    ∀ use : NodeRef → StoreM Unit,
      (∀ r s, s.WellFormed → Ends (use r) s (fun _ t => t.WellFormed) fun _ => True) →
        ∀ f : Forest Item, convertEach use (f.map (·.toPiece)) s = Store.plantEach use (image f) s := by
  refine ⟨fun d hd => ?_, fun hd => convert_of_none hd c s, fun hbears => ?_, Piece.exists_mirrors,
    fun use huse f => ?_⟩
  · exact ⟨_, _, convert_eq h hd c, h.plants_plant (plantable_imageBelow hd (growable_imageOf c)),
      imageOf_of_some hd c .nil⟩
  · rw [toList_imageOf hbears, Forest.toList_node, Forest.toList_nil, List.append_nil]
  · rw [convertEach_eq huse h, imageOf_map_toPiece]

/-- A list with a processing instruction and a comment between its items, and with a style. -/
theorem exists_convert_plants :
    let item (text : String) : Forest Piece → Forest Piece :=
      .node (.element "li" none htmlNs []) (.node (.text text) .nil .nil)
    let c := item "a" (.node (.instruction "x" "y") .nil (.node (.comment "b") .nil (item "c" .nil)))
    let i := Piece.element "ul" none htmlNs
      [⟨"class", none, "", "d"⟩, ⟨"style", none, "", "color: red; top: 0"⟩, ⟨"lang", some "xml", xmlNs, "e"⟩]
    let li : NodeData := .element ⟨"li", none, none, [], [], {}⟩
    let ul : NodeData := .element ⟨"ul", none, none,
      [.plain "class" "d", ⟨"lang", some "xml", some xmlNs, "e"⟩], [("color", "red"), ("top", "0")], {}⟩
    ∃ r t, Document.new.store.WellFormed ∧ convert (i, c) Document.new.store = .ok (some r) t ∧
      t.shape? r = some (ul, .node li (.node (.text "a") .nil .nil)
        (.node (.comment "b") .nil (.node li (.node (.text "c") .nil .nil) .nil))) ∧
      t.parent? r = none ∧ t.len = 10 ∧ t.get? (.cell 3 0) = some (.element ⟨"body", none, none, [], [], {}⟩) := by
  intro item c i li ul
  have h : Document.new.store.WellFormed := Document.over_new.store
  have hd : i.data? = some ul := by decide +kernel
  obtain ⟨r, t, hrun, hplants, -⟩ := (convert_plants h i c).1 ul hd
  have hbelow : imageBelow i c = .node li (.node (.text "a") .nil .nil)
      (.node (.comment "b") .nil (.node li (.node (.text "c") .nil .nil) .nil)) := by decide +kernel
  have hbody : Document.new.store.get? (.cell 3 0) = some (.element ⟨"body", none, none, [], [], {}⟩) := by
    decide +kernel
  refine ⟨r, t, h, hrun, hbelow ▸ hplants.shape?, hplants.parent?, ?_, ?_⟩
  · rw [hplants.len, hbelow]
    decide +kernel
  · rw [Store.get?, hplants.tree? _ (Store.get?_isSome_iff.mp (by rw [hbody]; rfl))]
    exact hbody

end DomHost.Markup
