import DomHost.Proofs.Document
import DomHost.Proofs.Name
import DomHost.Proofs.Store.Elements
import DomHost.Proofs.Store.Toggling

/-!
# Attributes as a keyed list

An attribute is found by its namespace and its local name. Setting one writes over the attribute with the same
key, and where there is none the new attribute comes behind all others. So no edit and no markup gives an element two
attributes with one key.

An attribute that is set by a name gets its key from the parts of the name, split at its first colon. One that is
removed by a name is looked for behind the last colon. Where the name is accepted at all, these are the same.

* `Attribute.key`, `Element.keys`, `Element.KeyedOnce`: keys, none of them twice;
* `Element.map_key_writeAttr`, `Element.writeAttr_eq_append`: an attribute that is written;
* `Element.Sets`, **`Element.sets_setAttr`**: what setting an attribute makes of an element;
* `Element.attrNs?_setAttr`: an attribute that is set and read;
* **`Element.steady_keyedOnce`**, **`Markup.keyedOnce_image`**: edits, and elements that are read;
* `Store.attributeKey`, **`QualifiedName.key_of_extract`**: the key that a name stands for.
-/

namespace DomHost

/-- What an attribute is found by: its namespace and its local name. -/
def Attribute.key (a : Attribute) : Option String × String := (a.ns, a.localName)

theorem Attribute.hasKey_eq (a : Attribute) (ns : Option String) (localName : String) :
    a.hasKey ns localName = decide (a.key = (ns, localName)) := by
  simp only [Attribute.hasKey, Attribute.key, Prod.mk.injEq, Bool.decide_and, Bool.beq_eq_decide_eq]

theorem Attribute.hasKey_eq_decide_key (a b : Attribute) :
    b.hasKey a.ns a.localName = decide (b.key = a.key) := b.hasKey_eq a.ns a.localName

namespace Element

variable {e : Element} {a : Attribute} {l : List Attribute} {key : Option String × String}

/-- The keys of the attributes, in order. -/
def keys (e : Element) : List (Option String × String) := e.attributes.map (·.key)

/-- No two attributes have the same key. -/
def KeyedOnce (e : Element) : Prop := e.keys.Nodup

instance (e : Element) : Decidable e.KeyedOnce := inferInstanceAs (Decidable e.keys.Nodup)

/-! ## An attribute that is written -/

theorem map_key_writeAttr (a : Attribute) (l : List Attribute) :
    (writeAttr a l).map (·.key) =
      if a.key ∈ l.map (·.key) then l.map (·.key) else l.map (·.key) ++ [a.key] := by
  induction l with
  | nil => rfl
  | cons b l ih =>
    rw [writeAttr, b.hasKey_eq]
    split
    · rename_i hb
      have hkey : b.key = a.key := of_decide_eq_true hb
      rw [if_pos (by simp [hkey])]
      rfl
    · rename_i hb
      have hne : a.key ≠ b.key := fun he => hb (decide_eq_true he.symm)
      simp only [List.map_cons, ih, List.mem_cons, hne, false_or]
      split <;> rfl

/-- A new key comes behind all others. -/
theorem writeAttr_eq_append (h : a.key ∉ l.map (·.key)) : writeAttr a l = l ++ [a] := by
  induction l with
  | nil => rfl
  | cons b l ih =>
    rw [List.map_cons, List.mem_cons, not_or] at h
    have hb : b.hasKey a.ns a.localName = false := by
      rw [b.hasKey_eq]
      exact decide_eq_false (Ne.symm h.1)
    rw [writeAttr, hb, if_neg Bool.false_ne_true, ih h.2]
    rfl

/-- What setting the attribute with a key makes of an element. -/
structure Sets (e : Element) (key : Option String × String) (value : String) (e' : Element) : Prop where
  own : e'.attrNs? key.1 key.2 = some value
  /-- Where no key was there twice, the attribute is the only one with its key. -/
  once : e.KeyedOnce → (e'.attributes.filter (·.key = key)).map (·.value) = [value]
  /-- All other attributes have kept their values and their order. -/
  others : e'.attributes.filter (·.key ≠ key) = e.attributes.filter (·.key ≠ key)
  order : e'.keys = if key ∈ e.keys then e.keys else e.keys ++ [key]
  rest : { e' with attributes := e.attributes } = e

theorem removeAttr_eq (e : Element) (ns : Option String) (localName : String) :
    e.removeAttr ns localName = { e with attributes := e.attributes.filter (·.key ≠ (ns, localName)) } := by
  simp only [removeAttr, Attribute.hasKey_eq, ne_eq, decide_not]

theorem KeyedOnce.setAttr (h : e.KeyedOnce) (a : Attribute) : (e.setAttr a).KeyedOnce := by
  unfold KeyedOnce keys Element.setAttr
  rw [map_key_writeAttr]
  split
  · exact h
  · rename_i hnew
    rw [← List.concat_eq_append]
    exact h.concat hnew

theorem KeyedOnce.length_filter_le (h : e.KeyedOnce) (key : Option String × String) :
    (e.attributes.filter (·.key = key)).length ≤ 1 := by
  have hcount := List.nodup_iff_count_le_one.mp h key
  rw [keys, List.count_eq_countP, List.countP_map, List.countP_eq_length_filter] at hcount
  simpa only [Function.comp_def, beq_eq_decide] using hcount

/-- **An attribute is set in the place of the one with its key, or behind all others.** -/
theorem sets_setAttr (e : Element) (a : Attribute) : e.Sets a.key a.value (e.setAttr a) := by
  have hothers := filter_writeAttr a e.attributes
  simp only [Attribute.hasKey_eq_decide_key, ← decide_not] at hothers
  refine ⟨find?_writeAttr a e.attributes, fun h => ?_, hothers, map_key_writeAttr a e.attributes, rfl⟩
  have hown := find?_writeAttr a e.attributes
  simp only [Attribute.hasKey_eq_decide_key, ← List.head?_filter] at hown
  obtain ⟨b, hhead, hvalue⟩ := Option.map_eq_some_iff.mp hown
  obtain ⟨rest, hfilter⟩ := List.head?_eq_some_iff.mp hhead
  have hlength : ((writeAttr a e.attributes).filter (·.key = a.key)).length ≤ 1 :=
    (h.setAttr a).length_filter_le a.key
  have hrest : rest = [] := by simpa [hfilter] using hlength
  simp only [Element.setAttr, hfilter, hrest, List.map_cons, hvalue, List.map_nil]

/-- Attributes are read by the key they are set by. -/
theorem attrNs?_setAttr (e : Element) (a : Attribute) (ns : Option String) (localName : String) :
    (e.setAttr a).attrNs? ns localName =
      if a.key = (ns, localName) then some a.value else e.attrNs? ns localName := by
  split
  · rename_i hkey
    obtain ⟨rfl, rfl⟩ := Prod.mk.inj hkey
    exact find?_writeAttr a e.attributes
  · rename_i hkey
    have hread : ∀ l : List Attribute, l.find? (·.hasKey ns localName) =
        ((l.filter (·.key ≠ a.key)).filter (·.key = (ns, localName))).head? := fun l => by
      rw [List.filter_filter, List.head?_filter]
      refine congrArg (l.find? ·) (funext fun b => ?_)
      by_cases hb : b.key = (ns, localName)
      · simp [b.hasKey_eq, hb, Ne.symm hkey]
      · simp [b.hasKey_eq, hb]
    rw [attrNs?, attrNs?, hread, hread, (e.sets_setAttr a).others]

theorem steady_keyedOnce : Store.Steady KeyedOnce where
  bare _ _ _ := List.nodup_nil
  control _ _ h := h
  setAttr _ a h := h.setAttr a
  removeAttr _ _ _ h := h.sublist (List.filter_sublist.map _)
  declare e property value h := by
    unfold Element.declare
    split <;> exact h

end Element

/-! ## Elements that are read -/

namespace Markup

theorem keyedOnce_adoptAttribute {e : Element} (h : e.KeyedOnce) (a : ReadAttribute) :
    (adoptAttribute e a).KeyedOnce := by
  unfold adoptAttribute
  split
  · exact h
  · exact h.setAttr a.toAttribute

/-- **What is read has no two attributes with one key**, however often a start tag writes it. -/
theorem keyedOnce_image (f : Forest Item) : ∀ x ∈ (image f).toList, x.Fits Element.KeyedOnce := by
  refine forall_mem_image (fun i d hd => ?_) f
  cases i with
  | element localName qualifier ns attributes =>
    cases hd
    exact List.foldlRecOn (motive := Element.KeyedOnce) attributes adoptAttribute List.nodup_nil fun _ he a _ =>
      keyedOnce_adoptAttribute he a
  | text s | comment s => cases hd; trivial
  | documentType name | instruction target content => cases hd

end Markup

/-! ## Keys by name -/

/-- The key of the attribute that a name stands for on an element. -/
def Store.attributeKey (e : Element) (name : String) : Option String → Option String × String
  | some ns => (effectiveNs (some ns), behindLastColon name)
  | none => (none, attributeName e name)

namespace QualifiedName

theorem behindLastColon_of_append {name : String} {before behind : List Char}
    (hname : name.toList = before ++ ':' :: behind) (h : ':' ∉ behind) :
    Store.behindLastColon name = String.ofList behind := by
  have hall : ∀ c ∈ behind.reverse, (c != ':') = true := fun c hc => by
    rw [bne_iff_ne]
    rintro rfl
    exact h (List.mem_reverse.mp hc)
  have htake : name.toList.reverse.takeWhile (· != ':') = behind.reverse := by
    rw [hname, List.reverse_append, List.reverse_cons, List.append_assoc, List.takeWhile_append_of_pos hall]
    simp
  rw [Store.behindLastColon, htake, List.reverse_reverse]

theorem behindLastColon_of_notMem {name : String} (h : ':' ∉ name.toList) : Store.behindLastColon name = name := by
  have hall : ∀ c ∈ name.toList.reverse, (c != ':') = true := fun c hc => by
    rw [bne_iff_ne]
    rintro rfl
    exact h (List.mem_reverse.mp hc)
  rw [Store.behindLastColon, List.takeWhile_eq_self_iff.mpr hall, List.reverse_reverse, String.ofList_toList]

/-- The local name of an accepted name stands behind its last colon. -/
theorem localName_of_split {name localName : String} {qualifier : Option String}
    (h : split name = .ok (qualifier, localName)) : localName = Store.behindLastColon name := by
  obtain ⟨rfl, hlocal, -⟩ := split_eq_ok_iff.mp h
  cases qualifier with
  | none => exact (behindLastColon_of_notMem hlocal).symm
  | some p => rw [behindLastColon_of_append (toList_qualified p localName) hlocal, String.ofList_toList]

/-- **The key of an accepted name is the one that it is removed by.** -/
theorem key_of_extract {ns : Option String} {name : String} {q : QualifiedName} (h : extract ns name = .ok q) :
    (q.ns, q.localName) = (effectiveNs ns, Store.behindLastColon name) := by
  obtain ⟨-, hsplit, hns, -⟩ := extract_eq_ok_iff_split.mp h
  rw [hns, ← localName_of_split hsplit]

end QualifiedName

end DomHost
