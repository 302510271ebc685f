import DomHost.Document.Html
import DomHost.Proofs.Name
import DomHost.Proofs.Store.Links
import Mathlib.Data.List.Basic

/-!
# What the text of a document tells

Plain HTML consists of elements outside all namespaces and of texts that are not empty, without inline style
and without elements whose content is raw. Its text tells all of it but the live state of form controls: names
end where no character of a name follows, the escapes of two characters never begin alike, and neither an
escaped text nor the end tag of an element can be taken for a start tag.

* `append_eq_of_stops`: two texts that end where a character of another kind follows;
* `Html.PrefixCode`, **`PrefixCode.injective`**: escapes;
* **`Html.startTag_cancel`**: a start tag tells its element;
* `Html.Plain`, **`Html.written_cancel`**: plain trees, and that they are told by their text, whatever follows;
* **`Document.shownForest_eq_of_outerHtml`**: two plain nodes with the same text;
* `Document.outerHtml_raw_text_alike`: a text in an element whose content is raw.
-/

namespace DomHost

/-! ## Where a text ends -/

/-- The characters do not begin with one that passes the test. -/
def Stops (p : Char → Bool) (cs : List Char) : Prop := ∀ c ∈ cs.head?, p c = false

variable {p : Char → Bool} {xs ys rest rest' : List Char}

theorem stops_cons {c : Char} (h : p c = false) : Stops p (c :: xs) := by
  intro d hd
  cases hd
  exact h

theorem Stops.takeWhile_eq_nil (h : Stops p xs) : xs.takeWhile p = [] := by
  cases xs with
  | nil => rfl
  | cons c xs => rw [List.takeWhile_cons_of_neg (by simp [h c rfl])]

theorem append_eq_of_stops (hx : ∀ c ∈ xs, p c = true) (hy : ∀ c ∈ ys, p c = true) (hr : Stops p rest)
    (hr' : Stops p rest') (h : xs ++ rest = ys ++ rest') : xs = ys ∧ rest = rest' := by
  have hxs : xs = ys := by
    have htake := congrArg (List.takeWhile p) h
    rwa [List.takeWhile_append_of_pos hx, List.takeWhile_append_of_pos hy, hr.takeWhile_eq_nil,
      hr'.takeWhile_eq_nil, List.append_nil, List.append_nil] at htake
  subst hxs
  exact ⟨rfl, List.append_cancel_left h⟩

namespace Html

/-! ## Escapes -/

/-- Texts for characters, of which no two begin alike. -/
structure PrefixCode (code : Char → String) : Prop where
  nonempty : ∀ c, (code c).toList ≠ []
  cancel : ∀ {c c' rest rest'}, (code c).toList ++ rest = (code c').toList ++ rest' → c = c' ∧ rest = rest'

theorem PrefixCode.injective {code : Char → String} (hcode : PrefixCode code)
    (h : xs.flatMap (fun c => (code c).toList) = ys.flatMap fun c => (code c).toList) : xs = ys := by
  induction xs generalizing ys with
  | nil =>
    cases ys with
    | nil => rfl
    | cons c ys => exact absurd (List.append_eq_nil_iff.mp h.symm).1 (hcode.nonempty c)
  | cons c xs ih =>
    cases ys with
    | nil => exact absurd (List.append_eq_nil_iff.mp h).1 (hcode.nonempty c)
    | cons c' ys =>
      obtain ⟨rfl, hrest⟩ := hcode.cancel h
      rw [ih hrest]

theorem prefixCode_escapeTextChar : PrefixCode escapeTextChar where
  nonempty c := by
    unfold escapeTextChar
    split <;> simp
  cancel {c c' rest rest'} h := by
    unfold escapeTextChar at h
    -- a character that is no escape is not the one that begins the escapes
    split at h <;> split at h <;> simp at h <;> grind

theorem prefixCode_escapeValueChar : PrefixCode escapeValueChar where
  nonempty c := by
    unfold escapeValueChar
    split <;> simp
  cancel {c c' rest rest'} h := by
    unfold escapeValueChar at h
    split at h <;> split at h <;> simp at h <;> grind

theorem toList_escapeText (s : String) :
    (escapeText s).toList = s.toList.flatMap fun c => (escapeTextChar c).toList := by
  rw [escapeText, String.toList_join, List.flatMap_map]

theorem toList_escapeValue (s : String) :
    (escapeValue s).toList = s.toList.flatMap fun c => (escapeValueChar c).toList := by
  rw [escapeValue, String.toList_join, List.flatMap_map]

theorem escapeText_injective {s t : String} (h : escapeText s = escapeText t) : s = t := by
  rw [← String.toList_inj, toList_escapeText, toList_escapeText] at h
  exact String.toList_inj.mp (prefixCode_escapeTextChar.injective h)

theorem escapeValue_injective {s t : String} (h : escapeValue s = escapeValue t) : s = t := by
  rw [← String.toList_inj, toList_escapeValue, toList_escapeValue] at h
  exact String.toList_inj.mp (prefixCode_escapeValueChar.injective h)

/-- An escaped text begins no tag. -/
theorem ne_of_mem_escapeText {s : String} : ∀ c ∈ (escapeText s).toList, (c != '<') = true := by
  intro c hc
  rw [toList_escapeText] at hc
  obtain ⟨d, -, hc⟩ := List.mem_flatMap.mp hc
  unfold escapeTextChar at hc
  split at hc <;> simp at hc <;> grind

/-- An escaped value does not end its attribute. -/
theorem ne_of_mem_escapeValue {s : String} : ∀ c ∈ (escapeValue s).toList, (c != '"') = true := by
  intro c hc
  rw [toList_escapeValue] at hc
  obtain ⟨d, -, hc⟩ := List.mem_flatMap.mp hc
  unfold escapeValueChar at hc
  split at hc <;> simp at hc <;> grind

theorem escapeText_ne_nil {s : String} (h : s ≠ "") : (escapeText s).toList ≠ [] := by
  rw [toList_escapeText]
  cases hs : s.toList with
  | nil => exact absurd (String.toList_inj.mp (hs.trans String.toList_empty.symm)) h
  | cons c cs => exact fun hnil => prefixCode_escapeTextChar.nonempty c (List.append_eq_nil_iff.mp hnil).1

/-! ## Start tags -/

/-- An attribute outside all namespaces with a name that is accepted. -/
structure PlainAttribute (a : Attribute) : Prop where
  ns : a.ns = none
  qualifier : a.qualifier = none
  name : validateName a.localName = .ok ()

/-- An element outside all namespaces with names that are accepted, without declarations and without raw
content. -/
structure PlainElement (e : Element) : Prop where
  ns : e.ns = none
  qualifier : e.qualifier = none
  name : validateName e.localName = .ok ()
  attributes : ∀ a ∈ e.attributes, PlainAttribute a
  style : e.style = []
  raw : e.localName ∉ rawTextElements

/-- What is shown of an element: all but its live state as a form control. -/
def shownElement (e : Element) : Element := { e with control := {} }

/-- What is shown of a node. -/
def shown : NodeData → NodeData
  | .element e => .element (shownElement e)
  | d => d

/-- A name begins with a character that begins names, and all its characters belong to names. -/
theorem name_spec {s : String} (h : validateName s = .ok ()) :
    (∃ c cs, s.toList = c :: cs ∧ isNameStart c = true) ∧ ∀ c ∈ s.toList, isNameChar c = true := by
  have hname := validateName_eq_ok_iff.mp h
  cases hs : s.toList with
  | nil => rw [hs] at hname; cases hname
  | cons c cs =>
    rw [hs, isName, Bool.and_eq_true, List.all_eq_true] at hname
    refine ⟨⟨c, cs, rfl, hname.1⟩, List.forall_mem_cons.mpr ⟨?_, hname.2⟩⟩
    simp [isNameChar, hname.1]

/-- Names that are followed by something else. -/
theorem name_cancel {s t : String} (hs : validateName s = .ok ()) (ht : validateName t = .ok ())
    (hr : Stops isNameChar rest) (hr' : Stops isNameChar rest')
    (h : s.toList ++ rest = t.toList ++ rest') : s = t ∧ rest = rest' := by
  obtain ⟨hname, hrest⟩ := append_eq_of_stops (name_spec hs).2 (name_spec ht).2 hr hr' h
  exact ⟨String.toList_inj.mp hname, hrest⟩

theorem toList_attributeText (name value : String) :
    (attributeText name value).toList =
      ' ' :: (name.toList ++ '=' :: '"' :: ((escapeValue value).toList ++ ['"'])) := by
  simp [attributeText, String.toList_append]

variable {a a' : Attribute} {e e' : Element}

theorem attribute_cancel (ha : PlainAttribute a) (ha' : PlainAttribute a')
    (h : (attributeText a.qualifiedName a.value).toList ++ rest =
      (attributeText a'.qualifiedName a'.value).toList ++ rest') : a = a' ∧ rest = rest' := by
  obtain ⟨name, qualifier, ns, value⟩ := a
  obtain ⟨name', qualifier', ns', value'⟩ := a'
  obtain ⟨rfl, rfl, hname⟩ := ha
  obtain ⟨rfl, rfl, hname'⟩ := ha'
  simp only [Attribute.qualifiedName, qualified, toList_attributeText, List.cons_append, List.append_assoc,
    List.cons.injEq, true_and] at h
  obtain ⟨rfl, hvalue⟩ := name_cancel hname hname' (stops_cons (by decide)) (stops_cons (by decide)) h
  simp only [List.cons.injEq, true_and] at hvalue
  obtain ⟨hescaped, hrest⟩ := append_eq_of_stops ne_of_mem_escapeValue ne_of_mem_escapeValue
    (stops_cons (by decide)) (stops_cons (by decide)) hvalue
  obtain rfl := escapeValue_injective (String.toList_inj.mp hescaped)
  simp only [List.nil_append, List.cons.injEq, true_and] at hrest
  exact ⟨rfl, hrest⟩

/-- The attributes of a start tag, up to its end. -/
theorem attributes_cancel {as as' : List Attribute} (has : ∀ a ∈ as, PlainAttribute a)
    (has' : ∀ a ∈ as', PlainAttribute a)
    (h : (as.flatMap fun a => (attributeText a.qualifiedName a.value).toList) ++ '>' :: rest =
      (as'.flatMap fun a => (attributeText a.qualifiedName a.value).toList) ++ '>' :: rest') :
    as = as' ∧ rest = rest' := by
  induction as generalizing as' with
  | nil =>
    cases as' with
    | nil => simpa using h
    | cons a' as' => simp [toList_attributeText] at h
  | cons a as ih =>
    cases as' with
    | nil => simp [toList_attributeText] at h
    | cons a' as' =>
      rw [List.forall_mem_cons] at has has'
      rw [List.flatMap_cons, List.flatMap_cons, List.append_assoc, List.append_assoc] at h
      obtain ⟨rfl, hmore⟩ := attribute_cancel has.1 has'.1 h
      obtain ⟨rfl, hrest⟩ := ih has.2 has'.2 hmore
      exact ⟨rfl, hrest⟩

theorem PlainElement.toList_startTag (he : PlainElement e) :
    (startTag e).toList = '<' :: (e.localName.toList ++
      ((e.attributes.flatMap fun a => (attributeText a.qualifiedName a.value).toList) ++ ['>'])) := by
  simp [startTag, attributesText, Element.qualifiedName, qualified, he.qualifier, Element.styleText, he.style,
    String.toList_append, String.toList_join, List.flatMap_map]

theorem PlainElement.toList_endTag (he : PlainElement e) :
    (endTag e).toList = '<' :: '/' :: (e.localName.toList ++ ['>']) := by
  simp [endTag, Element.qualifiedName, qualified, he.qualifier, String.toList_append]

/-- **A start tag tells its element.** -/
theorem startTag_cancel (he : PlainElement e) (he' : PlainElement e')
    (h : (startTag e).toList ++ rest = (startTag e').toList ++ rest') :
    shownElement e = shownElement e' ∧ rest = rest' := by
  have hstops : ∀ (as : List Attribute) (cs : List Char), Stops isNameChar
      ((as.flatMap fun a => (attributeText a.qualifiedName a.value).toList) ++ '>' :: cs) := by
    intro as cs
    cases as with
    | nil => exact stops_cons (by decide)
    | cons a as =>
      rw [List.flatMap_cons, toList_attributeText]
      exact stops_cons (by decide)
  rw [he.toList_startTag, he'.toList_startTag] at h
  simp only [List.cons_append, List.append_assoc, List.cons.injEq, true_and, List.nil_append] at h
  obtain ⟨hname, htail⟩ := name_cancel he.name he'.name (hstops _ _) (hstops _ _) h
  obtain ⟨hattributes, hrest⟩ := attributes_cancel he.attributes he'.attributes htail
  refine ⟨?_, hrest⟩
  simp only [shownElement, hname, hattributes, he.qualifier, he'.qualifier, he.ns, he'.ns, he.style, he'.style]

/-! ## Trees -/

/-- Does a forest begin with a text? -/
def startsWithText : Forest Node → Bool
  | .nil => false
  | .node n _ _ => n.data.isText

/-- Plain trees: elements and texts that are not empty, no two texts side by side, and nothing in void
elements. -/
def Plain : Forest Node → Prop
  | .nil => True
  | .node n c next => Plain c ∧ Plain next ∧
    match n.data with
    | .element e => PlainElement e ∧ (e.localName ∈ voidElements → c = .nil)
    | .text t => t ≠ "" ∧ startsWithText next = false
    | _ => False

/-- The trees as they are shown. -/
def shownForest (f : Forest Node) : Forest NodeData := f.map fun n => shown n.data

theorem shownForest_node (n : Node) (c next : Forest Node) :
    shownForest (.node n c next) = .node (shown n.data) (shownForest c) (shownForest next) := rfl

/-- The characters of the text of trees. -/
def written (f : Forest Node) : List Char := (writeForest f false "").toList

theorem writeForest_eq (f : Forest Node) (raw : Bool) (out : String) :
    writeForest f raw out = out ++ writeForest f raw "" := by
  induction f generalizing raw out with
  | nil => exact String.append_empty.symm
  | node n c next ihc ihn =>
    obtain ⟨ref, data⟩ := n
    cases data with
    | document =>
      simp only [writeForest]
      rw [ihn raw (writeForest c false out), ihn raw (writeForest c false ""), ihc false out, String.append_assoc]
    | text t =>
      simp only [writeForest]
      rw [ihn, ihn raw ("" ++ _), String.empty_append, String.append_assoc]
    | comment t =>
      simp only [writeForest]
      rw [ihn, ihn raw ("" ++ _ ++ _ ++ _), String.empty_append]
      simp only [String.append_assoc]
    | element e =>
      simp only [writeForest]
      split
      · rw [ihn, ihn raw ("" ++ _), String.empty_append, String.append_assoc]
      · rw [ihn, ihn raw (_ ++ endTag e), ihc _ (out ++ _), ihc _ ("" ++ _), String.empty_append]
        simp only [String.append_assoc]

variable {ref : NodeRef} {c next f g : Forest Node}

theorem written_text (t : String) :
    written (.node ⟨ref, .text t⟩ c next) = (escapeText t).toList ++ written next := by
  simp only [written, writeForest]
  rw [writeForest_eq, String.toList_append]
  simp

theorem isNamed_plain (he : PlainElement e) (names : List String) :
    isNamed names e = true ↔ e.localName ∈ names := by
  simp [isNamed, he.ns]

theorem written_element (he : PlainElement e) :
    written (.node ⟨ref, .element e⟩ c next) = (startTag e).toList ++
      ((if e.localName ∈ voidElements then [] else written c ++ (endTag e).toList) ++ written next) := by
  have hraw : isNamed rawTextElements e = false := by
    rw [← Bool.not_eq_true, isNamed_plain he]
    exact he.raw
  simp only [written, writeForest, isNamed_plain he, hraw]
  rw [writeForest_eq, String.toList_append, ← List.append_assoc]
  split
  · rw [String.empty_append, List.append_nil]
  · rw [writeForest_eq c]
    simp only [String.toList_append, String.empty_append, List.append_assoc]

/-- What the characters behind some trees begin with. -/
inductive Lead where
  | tag | text | over
deriving DecidableEq

/-- The characters begin with a start tag, with a text, or else with an end tag if at all. -/
def lead : List Char → Lead
  | [] => .over
  | '<' :: '/' :: _ => .over
  | '<' :: _ => .tag
  | _ => .text

/-- What trees begin with. -/
def leadOf : Forest Node → Lead
  | .nil => .over
  | .node n _ _ => if n.data.isText then .text else .tag

theorem PlainElement.lead_startTag (he : PlainElement e) (cs : List Char) :
    lead ((startTag e).toList ++ cs) = .tag := by
  obtain ⟨⟨c, name, hname, hstart⟩, -⟩ := name_spec he.name
  have hslash : c ≠ '/' := by
    rintro rfl
    exact absurd hstart (by decide)
  rw [he.toList_startTag, hname]
  simp [lead, hslash]

theorem lead_escapeText {t : String} (ht : t ≠ "") (cs : List Char) :
    lead ((escapeText t).toList ++ cs) = .text := by
  cases hs : (escapeText t).toList with
  | nil => exact absurd hs (escapeText_ne_nil ht)
  | cons c rest =>
    have hc := ne_of_mem_escapeText c (hs ▸ List.mem_cons_self)
    rw [bne_iff_ne] at hc
    simp [lead, hc]

/-- The text of plain trees begins as the trees do. -/
theorem lead_written (hf : Plain f) (hr : lead rest = .over) : lead (written f ++ rest) = leadOf f := by
  cases f with
  | nil => exact hr
  | node n c next =>
    obtain ⟨ref, data⟩ := n
    obtain ⟨-, -, hdata⟩ := hf
    cases data with
    | document | comment => cases hdata
    | text t =>
      rw [written_text, List.append_assoc, lead_escapeText hdata.1]
      rfl
    | element e =>
      rw [written_element hdata.1, List.append_assoc, hdata.1.lead_startTag]
      rfl

theorem PlainElement.lead_endTag (he : PlainElement e) (cs : List Char) :
    lead ((endTag e).toList ++ cs) = .over := by
  rw [he.toList_endTag]
  rfl

/-- A text is followed by characters that begin a tag. -/
theorem stops_written (hf : Plain f) (ht : startsWithText f = false) (hr : lead rest = .over) :
    Stops (· != '<') (written f ++ rest) := by
  have hlead : lead (written f ++ rest) ≠ .text := by
    rw [lead_written hf hr]
    cases f with
    | nil => nofun
    | node n c next => simpa [leadOf, startsWithText] using ht
  intro c hc
  cases hcs : written f ++ rest with
  | nil => simp [hcs] at hc
  | cons d cs =>
    rw [hcs] at hc hlead
    obtain rfl : d = c := Option.some.inj hc
    by_contra hne
    exact hlead (by simp_all [lead])

theorem leadOf_eq_over : leadOf f = .over ↔ f = .nil := by
  cases f with
  | nil => simp [leadOf]
  | node n c next => cases hn : n.data.isText <;> simp [leadOf, hn]

theorem leadOf_eq (hf : Plain f) (hg : Plain g) (hr : lead rest = .over) (hr' : lead rest' = .over)
    (h : written f ++ rest = written g ++ rest') : leadOf f = leadOf g := by
  rw [← lead_written hf hr, ← lead_written hg hr', h]

/-- Two texts are the same if their escapes are, and so is what follows them. -/
theorem text_cancel {t t' : String} (hf : Plain (.node ⟨ref, .text t⟩ c next))
    (hg : Plain (.node ⟨ref', .text t'⟩ c' next')) (hr : lead rest = .over) (hr' : lead rest' = .over)
    (h : written (.node ⟨ref, .text t⟩ c next) ++ rest = written (.node ⟨ref', .text t'⟩ c' next') ++ rest') :
    t = t' ∧ written next ++ rest = written next' ++ rest' := by
  obtain ⟨-, hnext, -, hlone⟩ := hf
  obtain ⟨-, hnext', -, hlone'⟩ := hg
  rw [written_text, written_text, List.append_assoc, List.append_assoc] at h
  obtain ⟨htext, htail⟩ := append_eq_of_stops ne_of_mem_escapeText ne_of_mem_escapeText
    (stops_written hnext hlone hr) (stops_written hnext' hlone' hr') h
  exact ⟨escapeText_injective (String.toList_inj.mp htext), htail⟩

/-- Two elements show the same if they are written alike, and so are their contents with what follows them. -/
theorem element_cancel (he : PlainElement e) (he' : PlainElement e')
    (h : written (.node ⟨ref, .element e⟩ c next) ++ rest =
      written (.node ⟨ref', .element e'⟩ c' next') ++ rest') :
    shownElement e = shownElement e' ∧
      if e.localName ∈ voidElements then written next ++ rest = written next' ++ rest'
      else written c ++ ((endTag e).toList ++ (written next ++ rest)) =
        written c' ++ ((endTag e).toList ++ (written next' ++ rest')) := by
  rw [written_element he, written_element he'] at h
  simp only [List.append_assoc] at h
  obtain ⟨hshown, htail⟩ := startTag_cancel he he' h
  have hname : e.localName = e'.localName := (congrArg Element.localName hshown :)
  have hend : (endTag e).toList = (endTag e').toList := by rw [he.toList_endTag, he'.toList_endTag, hname]
  rw [← hname, ← hend] at htail
  refine ⟨hshown, ?_⟩
  split at htail
  · rwa [if_pos ‹_›]
  · rw [List.append_assoc, List.append_assoc] at htail
    rwa [if_neg ‹_›]

/-- **Plain trees are told by their text, whatever follows that is no tree.** -/
theorem written_cancel (hf : Plain f) (hg : Plain g)
    (hleaf : f.BearsOnly fun n => n.data.isContainer = true)
    (hleaf' : g.BearsOnly fun n => n.data.isContainer = true) (hr : lead rest = .over)
    (hr' : lead rest' = .over) (h : written f ++ rest = written g ++ rest') :
    shownForest f = shownForest g ∧ rest = rest' := by
  induction f generalizing g rest rest' with
  | nil =>
    obtain rfl := leadOf_eq_over.mp (leadOf_eq hf hg hr hr' h).symm
    exact ⟨rfl, h⟩
  | node n c next ihc ihn =>
    -- what is written begins alike, so both rows of trees go on, with nodes of one kind
    have hlead := leadOf_eq hf hg hr hr' h
    cases g with
    | nil => cases leadOf_eq_over.mp hlead
    | node n' c' next' =>
      obtain ⟨ref, data⟩ := n
      obtain ⟨ref', data'⟩ := n'
      have hplain := hf
      have hplain' := hg
      obtain ⟨hc, hnext, hdata⟩ := hf
      obtain ⟨hc', hnext', hdata'⟩ := hg
      obtain ⟨hbears, hleafc, hleafn⟩ := hleaf
      obtain ⟨hbears', hleafc', hleafn'⟩ := hleaf'
      cases data with
      | document | comment => cases hdata
      | text t =>
        cases data' with
        | document | comment => cases hdata'
        | element e' => cases hlead
        | text t' =>
          obtain ⟨rfl, htail⟩ := text_cancel hplain hplain' hr hr' h
          obtain ⟨hshown, hrest⟩ := ihn hnext hnext' hleafn hleafn' hr hr' htail
          obtain rfl : c = .nil := not_imp_comm.mp hbears (by simp [NodeData.isContainer])
          obtain rfl : c' = .nil := not_imp_comm.mp hbears' (by simp [NodeData.isContainer])
          exact ⟨congrArg (Forest.node _ _) hshown, hrest⟩
      | element e =>
        cases data' with
        | document | comment => cases hdata'
        | text t' => cases hlead
        | element e' =>
          obtain ⟨he, hempty⟩ := hdata
          obtain ⟨he', hempty'⟩ := hdata'
          obtain ⟨hshown, htail⟩ := element_cancel he he' h
          have hname : e.localName = e'.localName := (congrArg Element.localName hshown :)
          have hshown : shown (.element e) = shown (.element e') := congrArg NodeData.element hshown
          split at htail
          · rename_i hvoid
            obtain rfl := hempty hvoid
            obtain rfl := hempty' (hname ▸ hvoid)
            obtain ⟨hbehind, hrest⟩ := ihn hnext hnext' hleafn hleafn' hr hr' htail
            exact ⟨by rw [shownForest_node, shownForest_node, hshown, hbehind], hrest⟩
          · obtain ⟨hbelow, htail⟩ := ihc hc hc' hleafc hleafc' (he.lead_endTag _) (he.lead_endTag _) htail
            obtain ⟨hbehind, hrest⟩ :=
              ihn hnext hnext' hleafn hleafn' hr hr' (List.append_cancel_left htail)
            exact ⟨by rw [shownForest_node, shownForest_node, hshown, hbelow, hbehind], hrest⟩

end Html

namespace Document

variable {d d' : Document} {r r' : NodeRef} {n n' : Node} {c c' : Forest Node}

/-- Is a text at the place of a node written as it is? -/
def inRawText (d : Document) (r : NodeRef) : Bool :=
  (d.store.parent? r).any fun p => (d.store.get? p).any Html.holdsRawText

/-- A node has plain trees below it and, if it is a text, is written escaped. -/
structure IsPlain (d : Document) (r : NodeRef) (n : Node) (c : Forest Node) : Prop where
  tree : d.store.tree? r = some (n, c)
  plain : Html.Plain (.node n c .nil)
  escaped : n.data.isText = true → d.inRawText r = false

theorem IsPlain.outerHtml_eq (h : d.IsPlain r n c) :
    (d.outerHtml r).toList = Html.written (.node n c .nil) := by
  have hout : d.outerHtml r = Html.writeForest (.node n c .nil) (d.inRawText r) "" := by
    rw [outerHtml, h.tree]
    rfl
  rw [hout]
  by_cases htext : n.data.isText = true
  · rw [h.escaped htext]
    rfl
  · -- for an element it does not matter whether texts in its place are written as they are
    obtain ⟨ref, data⟩ := n
    cases data with
    | text t => exact absurd rfl htext
    | document | comment | element e => rfl

theorem bearsOnly_tree (hd : d.store.WellFormed) (h : d.store.tree? r = some (n, c)) :
    (Forest.node n c .nil).BearsOnly fun n => n.data.isContainer = true := by
  obtain ⟨hbears, hbelow⟩ := hd.bears.of_mem_trees (Store.mem_trees_of_tree? h).1
  exact ⟨hbears, hbelow, trivial⟩

/-- **Plain nodes with the same text show the same.** -/
theorem shownForest_eq_of_outerHtml (hd : d.store.WellFormed) (hd' : d'.store.WellFormed)
    (h : d.IsPlain r n c) (h' : d'.IsPlain r' n' c') (hout : d.outerHtml r = d'.outerHtml r') :
    Html.shownForest (.node n c .nil) = Html.shownForest (.node n' c' .nil) := by
  have hwritten : Html.written (.node n c .nil) ++ [] = Html.written (.node n' c' .nil) ++ [] := by
    rw [← h.outerHtml_eq, ← h'.outerHtml_eq, hout]
  exact (Html.written_cancel h.plain h'.plain (bearsOnly_tree hd h.tree) (bearsOnly_tree hd' h'.tree) rfl rfl
    hwritten).1

/-- A document that some calls build. -/
def built (os : List Store.Operation) : Document := { store := os.foldl Store.Operation.apply .new }

theorem wellFormed_built (os : List Store.Operation) : (built os).store.WellFormed :=
  Store.wellFormed_new.foldl_apply os

/-- An element with attributes, which may be checked by hand. -/
def box (tag : String) (attributes : List Attribute) (checked : Option Bool) : NodeData :=
  .element { localName := tag, qualifier := none, ns := none, attributes, control := { checked } }

/-- A label of a text and a checked box, put together in two orders and once unchecked by hand. -/
theorem shownForest_eq_of_outerHtml_label :
    let marks := [Attribute.plain "title" "a \"quoted\" & b", .plain "checked" ""]
    let d := built [.insertNode (box "label" [] none) rfl, .insertNode (box "input" marks none) rfl,
      .createText "1 < 2", .appendChild (.cell 1 0) (.cell 2 0), .appendChild (.cell 1 0) (.cell 3 0)]
    let d' := built [.createText "1 < 2", .insertNode (box "input" marks (some false)) rfl,
      .insertNode (box "label" [] none) rfl, .appendChild (.cell 3 0) (.cell 1 0),
      .insertBefore (.cell 3 0) (.cell 2 0) (some (.cell 1 0))]
    ∃ n c n' c', (d.IsPlain (.cell 1 0) n c ∧ d'.IsPlain (.cell 3 0) n' c' ∧
        d.outerHtml (.cell 1 0) = d'.outerHtml (.cell 3 0)) ∧
      Html.shownForest (.node n c .nil) = Html.shownForest (.node n' c' .nil) := by
  intro marks d d'
  have hattributes : ∀ a ∈ marks, Html.PlainAttribute a := by
    intro a ha
    simp only [marks, List.mem_cons, List.not_mem_nil, or_false] at ha
    rcases ha with rfl | rfl <;> exact ⟨rfl, rfl, by decide⟩
  have hinput : ∀ checked, Html.PlainElement
      { localName := "input", qualifier := none, ns := none, attributes := marks, control := { checked } } :=
    fun checked => ⟨rfl, rfl, (by decide : validateName "input" = .ok ()), hattributes, rfl,
      (by decide : "input" ∉ Html.rawTextElements)⟩
  have hlabel : Html.PlainElement { localName := "label", qualifier := none, ns := none } :=
    ⟨rfl, rfl, by decide, nofun, rfl, by decide⟩
  have h : d.IsPlain (.cell 1 0) ⟨.cell 1 0, box "label" [] none⟩
      (.node ⟨.cell 2 0, box "input" marks none⟩ .nil (.node ⟨.cell 3 0, .text "1 < 2"⟩ .nil .nil)) :=
    ⟨rfl, ⟨⟨trivial, ⟨trivial, trivial, by decide, rfl⟩, hinput none, fun _ => rfl⟩, trivial, hlabel,
      fun hvoid => absurd hvoid (by decide)⟩, nofun⟩
  have h' : d'.IsPlain (.cell 3 0) ⟨.cell 3 0, box "label" [] none⟩
      (.node ⟨.cell 2 0, box "input" marks (some false)⟩ .nil (.node ⟨.cell 1 0, .text "1 < 2"⟩ .nil .nil)) :=
    ⟨rfl, ⟨⟨trivial, ⟨trivial, trivial, by decide, rfl⟩, hinput (some false), fun _ => rfl⟩, trivial, hlabel,
      fun hvoid => absurd hvoid (by decide)⟩, nofun⟩
  have hout : d.outerHtml (.cell 1 0) = d'.outerHtml (.cell 3 0) := by decide
  exact ⟨_, _, _, _, ⟨h, h', hout⟩,
    shownForest_eq_of_outerHtml (wellFormed_built _) (wellFormed_built _) h h' hout⟩

/-- **A text in an element whose content is raw reads as another text does elsewhere.** -/
theorem outerHtml_raw_text_alike :
    let d := built [.insertNode (box "style" [] none) rfl, .createText "&lt;",
      .appendChild (.cell 1 0) (.cell 2 0), .createText "<"]
    let raw : Node := ⟨.cell 2 0, .text "&lt;"⟩
    let escaped : Node := ⟨.cell 3 0, .text "<"⟩
    d.store.tree? raw.ref = some (raw, .nil) ∧ d.store.tree? escaped.ref = some (escaped, .nil) ∧
      Html.Plain (.node raw .nil .nil) ∧ Html.Plain (.node escaped .nil .nil) ∧
      d.outerHtml raw.ref = d.outerHtml escaped.ref ∧
      Html.shownForest (.node raw .nil .nil) ≠ Html.shownForest (.node escaped .nil .nil) :=
  ⟨rfl, rfl, ⟨trivial, trivial, by decide, rfl⟩, ⟨trivial, trivial, by decide, rfl⟩, by decide, by decide⟩

end Document

end DomHost
