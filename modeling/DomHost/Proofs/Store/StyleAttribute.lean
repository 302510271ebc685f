import DomHost.Document.Html
import DomHost.Proofs.Html
import DomHost.Proofs.Store.Elements
import DomHost.Proofs.Store.Toggling

/-!
# The attribute `style`

A start tag gets an attribute `style` from two places: from the attributes of the element, if one of them is
written that way, and from its declarations, if there are any. Markup that is read fills only the second place. So
there are two such attributes just where one place is filled while the other one is.

* `Element.written`, **`Document.exists_outerHtml_eq`**: the attributes that a start tag shows;
* `Element.styles`, `Element.StyledOnce`: how many of them are called `style`, and elements where one is at most;
* `Element.styles_setAttr`, `Element.styles_declare`: what is set, and what is declared;
* **`Element.styledOnce_setAttr_iff`**, **`Element.styledOnce_declare_iff`**: when it stays at one;
* **`Markup.styledOnce_image`**: elements that are read.
-/

namespace DomHost

namespace Element

variable {e : Element} {a : Attribute} {property value : String}

/-- The attributes that the start tag shows, by the names they are written with. -/
def written (e : Element) : List (String × String) :=
  e.attributes.map (fun a => (a.qualifiedName, a.value)) ++ (e.styleText.map ("style", ·)).toList

end Element

/-- A start tag shows the written attributes in order. -/
theorem Html.startTag_eq (e : Element) :
    startTag e =
      "<" ++ e.qualifiedName ++ String.join (e.written.map fun w => attributeText w.1 w.2) ++ ">" := by
  rw [startTag, attributesText, Element.written, List.map_append, List.map_map, String.join_append]
  cases e.styleText with
  | none => rfl
  | some s => simp [Function.comp_def]

/-- **The text of an element begins with its start tag.** -/
theorem Document.exists_outerHtml_eq {d : Document} {r : NodeRef} {e : Element}
    (h : d.store.element? r = some e) : ∃ rest, d.outerHtml r = Html.startTag e ++ rest := by
  obtain ⟨c, ht⟩ := Store.exists_tree?_of_get? (Store.element?_eq_some_iff.mp h)
  rw [Document.outerHtml, ht]
  simp only [Html.writeForest]
  split
  · exact ⟨"", by rw [String.empty_append, String.append_empty]⟩
  · rw [Html.writeForest_eq, String.empty_append, String.append_assoc]
    exact ⟨_, rfl⟩

namespace Element

variable {e : Element} {a : Attribute} {property value : String}

/-- The number of attributes in the start tag that are called `style`. -/
def styles (e : Element) : Nat := e.written.countP (·.1 == "style")

/-- Outside all namespaces, a start tag has at most one attribute `style`. -/
def StyledOnce (e : Element) : Prop := e.ns = none → e.styles ≤ 1

instance (e : Element) : Decidable e.StyledOnce := inferInstanceAs (Decidable (e.ns = none → e.styles ≤ 1))

theorem styles_eq (e : Element) :
    e.styles = e.attributes.countP (·.qualifiedName == "style") + if e.style = [] then 0 else 1 := by
  rw [styles, written, List.countP_append, List.countP_map]
  congr 1
  unfold styleText
  cases e.style <;> rfl

theorem styles_le (e : Element) : e.styles ≤ e.attributes.countP (·.qualifiedName == "style") + 1 := by
  rw [styles_eq]
  split <;> omega

/-! ## Attributes that are set -/

theorem countP_writeAttr {p : Attribute → Bool} (hp : ∀ b value, p { b with value := value } = p b)
    (a : Attribute) (l : List Attribute) :
    (writeAttr a l).countP p =
      l.countP p + if l.find? (·.hasKey a.ns a.localName) = none ∧ p a = true then 1 else 0 := by
  induction l with
  | nil => simp [writeAttr, List.countP_cons]
  | cons b l ih =>
    rw [writeAttr]
    split
    · rename_i hb
      rw [List.find?_cons_of_pos (by exact hb), List.countP_cons, List.countP_cons, hp]
      simp
    · rename_i hb
      rw [List.find?_cons_of_neg (by exact hb), List.countP_cons, List.countP_cons, ih]
      omega

/-- One more attribute is called `style` if it is new and written so. -/
theorem styles_setAttr (e : Element) (a : Attribute) :
    (e.setAttr a).styles =
      e.styles + if e.attrNs? a.ns a.localName = none ∧ a.qualifiedName = "style" then 1 else 0 := by
  have hcount := countP_writeAttr (p := (·.qualifiedName == "style")) (fun _ _ => rfl) a e.attributes
  simp only [beq_iff_eq, ← Option.map_eq_none_iff (f := Attribute.value)] at hcount
  rw [styles_eq, styles_eq, Nat.add_right_comm]
  exact congrArg (· + if e.style = [] then 0 else 1) hcount

theorem styles_removeAttr_le (e : Element) (ns : Option String) (localName : String) :
    (e.removeAttr ns localName).styles ≤ e.styles := by
  rw [styles_eq, styles_eq]
  exact Nat.add_le_add_right (List.filter_sublist.countP_le) _

theorem writeDeclaration_ne_nil (property value : String) (l : List (String × String)) :
    writeDeclaration property value l ≠ [] := by
  cases l with
  | nil => exact List.cons_ne_nil _ _
  | cons d l =>
    rw [writeDeclaration]
    split <;> exact List.cons_ne_nil _ _

/-- The first declaration is shown as one more attribute. -/
theorem styles_declare (hv : value ≠ "") :
    (e.declare property value).styles = e.styles + if e.style = [] then 1 else 0 := by
  have hempty : value.isEmpty = false := by simpa using hv
  rw [styles_eq, styles_eq, declare, hempty]
  simp only [Bool.false_eq_true, if_false, writeDeclaration_ne_nil]
  split <;> rfl

theorem styles_declare_empty_le (e : Element) (property : String) : (e.declare property "").styles ≤ e.styles := by
  rw [styles_eq, styles_eq, declare]
  refine Nat.add_le_add_left ?_ _
  split_ifs <;> simp_all

/-! ## At most one -/

/-- Would the attribute, when it is set, be a second one called `style`? -/
def Doubles (e : Element) (a : Attribute) : Prop :=
  e.ns = none ∧ e.styles ≠ 0 ∧ e.attrNs? a.ns a.localName = none ∧ a.qualifiedName = "style"

/-- Would the value, when it is declared, lead to a second attribute called `style`? -/
def DoublesDeclared (e : Element) (value : String) : Prop :=
  e.ns = none ∧ e.styles ≠ 0 ∧ value ≠ "" ∧ e.style = []

instance (e : Element) (a : Attribute) : Decidable (e.Doubles a) :=
  inferInstanceAs (Decidable (_ ∧ _ ∧ _ ∧ _))

instance (e : Element) (value : String) : Decidable (e.DoublesDeclared value) :=
  inferInstanceAs (Decidable (_ ∧ _ ∧ _ ∧ _))

theorem add_ite_le_one_iff {n : Nat} (hn : n ≤ 1) (c : Prop) [Decidable c] :
    n + (if c then 1 else 0) ≤ 1 ↔ ¬ (n ≠ 0 ∧ c) := by
  split <;> rename_i hc
  · rw [and_iff_left hc]
    omega
  · simp only [hc, and_false, not_false_iff, iff_true]
    omega

/-- **An attribute that is set leaves one attribute `style` at most just if it is no second one.** -/
theorem styledOnce_setAttr_iff (h : e.StyledOnce) (a : Attribute) : (e.setAttr a).StyledOnce ↔ ¬ e.Doubles a := by
  rw [StyledOnce, styles_setAttr, Doubles, not_and]
  exact forall_congr' fun hns => add_ite_le_one_iff (h hns) _

/-- **A declaration leaves one attribute `style` at most just if it leads to no second one.** -/
theorem styledOnce_declare_iff (h : e.StyledOnce) (property value : String) :
    (e.declare property value).StyledOnce ↔ ¬ e.DoublesDeclared value := by
  have hns : (e.declare property value).ns = e.ns := by
    unfold declare
    split <;> rfl
  rw [StyledOnce, hns, DoublesDeclared, not_and]
  refine forall_congr' fun hns => ?_
  by_cases hv : value = ""
  · exact iff_of_true (hv ▸ (e.styles_declare_empty_le property).trans (h hns)) fun hd => hd.2.1 hv
  · rw [styles_declare hv, add_ite_le_one_iff (h hns), ne_eq value, eq_false hv, not_false_eq_true, true_and]

theorem StyledOnce.removeAttr (h : e.StyledOnce) (ns : Option String) (localName : String) :
    (e.removeAttr ns localName).StyledOnce := fun hns => (e.styles_removeAttr_le ns localName).trans (h hns)

/-- An attribute that is written with another name leads to no second one called `style`. -/
theorem StyledOnce.setAttr (h : e.StyledOnce) (ha : a.qualifiedName ≠ "style") : (e.setAttr a).StyledOnce :=
  (styledOnce_setAttr_iff h a).mpr fun hd => ha hd.2.2.2

end Element

theorem Store.bare_styledOnce : Bare Element.StyledOnce := fun _ _ _ _ => Nat.zero_le 1

/-! ## Elements that are read -/

namespace Markup

/-- Only the attribute that becomes declarations is written `style`. -/
theorem ReadAttribute.qualifiedName_ne (a : ReadAttribute) (h : ¬ (a.ns = none ∧ a.localName = "style")) :
    a.qualifiedName ≠ "style" := by
  obtain ⟨⟨localName, qualifier, ns, value⟩, hbound, _⟩ := a
  cases qualifier with
  | none =>
    have hns : ns = none := Option.isNone_iff_eq_none.mp (Option.isSome_eq_false_iff.mp hbound.symm)
    exact fun he => h ⟨hns, he⟩
  | some q =>
    intro he
    have hmem : ':' ∈ (q ++ ":" ++ localName).toList := by simp
    have hcolon : ':' ∈ "style".toList := by
      rw [← he]
      exact hmem
    exact absurd hcolon (by decide)

theorem countP_foldl_adoptAttribute (attributes : List ReadAttribute) {e : Element}
    (h : e.attributes.countP (·.qualifiedName == "style") = 0) :
    (attributes.foldl adoptAttribute e).attributes.countP (·.qualifiedName == "style") = 0 := by
  induction attributes generalizing e with
  | nil => exact h
  | cons a attributes ih =>
    refine ih ?_
    unfold adoptAttribute
    split
    · exact h
    · rename_i ha
      have hcount := Element.countP_writeAttr (p := (·.qualifiedName == "style")) (fun _ _ => rfl) a.toAttribute
        e.attributes
      rw [if_neg fun hc => a.qualifiedName_ne ha (beq_iff_eq.mp hc.2), h] at hcount
      exact hcount

/-- **What is read has one attribute `style` at most.** -/
theorem styledOnce_image (f : Forest Item) : ∀ x ∈ (image f).toList, x.Fits Element.StyledOnce := by
  refine forall_mem_image (fun i d hd => ?_) f
  cases i with
  | element localName qualifier ns attributes =>
    cases hd
    refine fun _ => (Element.styles_le _).trans ?_
    rw [countP_foldl_adoptAttribute attributes rfl]
  | text s | comment s => cases hd; trivial
  | documentType name | instruction target content => cases hd

end Markup

end DomHost
