import DomHost.Proofs.Cautious
import DomHost.Proofs.Store.Elements

/-!
# Style declarations

The inline style of an element is a list of declarations by property. Declaring a property writes over the first
of its declarations, or behind all of them, and an empty value takes all of them out. So where a property is
declared twice, the second declaration stays.

* `Element.declared`, `Element.DeclaresOnce`: the declared properties, none of them twice;
* `Element.map_fst_writeDeclaration`, `Element.filter_eq_writeDeclaration`: a declaration that is written;
* `Element.Declares`, **`Element.declares_declare`**: what declaring a property makes of an element;
* `Element.DeclaresOnce.declare`: properties that are declared once go on to be;
* **`Store.exists_setStyle`**: the element that gets a declaration, and all other nodes.
-/

namespace DomHost

namespace Element

variable {e : Element} {property value : String}

/-- The properties that are declared, in order. -/
def declared (e : Element) : List String := e.style.map (·.1)

/-- No property is declared twice. -/
def DeclaresOnce (e : Element) : Prop := e.declared.Nodup

instance (e : Element) : Decidable e.DeclaresOnce := inferInstanceAs (Decidable e.declared.Nodup)

/-! ## A declaration that is written -/

theorem map_fst_writeDeclaration (property value : String) (l : List (String × String)) :
    (writeDeclaration property value l).map (·.1) =
      if property ∈ l.map (·.1) then l.map (·.1) else l.map (·.1) ++ [property] := by
  induction l with
  | nil => rfl
  | cons d l ih =>
    rw [writeDeclaration]
    split
    · rename_i hd
      rw [if_pos (by simp [beq_iff_eq.mp hd])]
      rfl
    · rename_i hd
      have hne : property ≠ d.1 := fun he => hd (beq_iff_eq.mpr he.symm)
      simp only [List.map_cons, ih, List.mem_cons, hne, false_or]
      split <;> rfl

/-- The first declaration of the property gives way, and those behind it stay. -/
theorem filter_eq_writeDeclaration (property value : String) (l : List (String × String)) :
    (writeDeclaration property value l).filter (·.1 == property) =
      (property, value) :: (l.filter (·.1 == property)).tail := by
  induction l with
  | nil => simp [writeDeclaration]
  | cons d l ih =>
    rw [writeDeclaration]
    split
    · rename_i hd
      rw [List.filter_cons_of_pos (by exact hd), List.filter_cons_of_pos (by exact hd), List.tail_cons,
        beq_iff_eq.mp hd]
    · rename_i hd
      rw [List.filter_cons_of_neg (by exact hd), List.filter_cons_of_neg (by exact hd)]
      exact ih

theorem filter_ne_writeDeclaration (property value : String) (l : List (String × String)) :
    (writeDeclaration property value l).filter (·.1 != property) = l.filter (·.1 != property) := by
  induction l with
  | nil => simp [writeDeclaration]
  | cons d l ih =>
    rw [writeDeclaration]
    split
    · rename_i hd
      simp [beq_iff_eq.mp hd]
    · simp only [List.filter_cons, ih]

/-! ## Declaring a property -/

/-- What declaring a property makes of an element. -/
structure Declares (e : Element) (property value : String) (e' : Element) : Prop where
  /-- The declarations of the property itself. -/
  own : e'.style.filter (·.1 == property) =
    if value = "" then [] else (property, value) :: (e.style.filter (·.1 == property)).tail
  /-- The declaration is the only one of the property exactly if there were no two of them before. -/
  once : value ≠ "" → (e'.style.filter (·.1 == property) = [(property, value)] ↔
    (e.style.filter (·.1 == property)).length ≤ 1)
  /-- All other declarations have kept their values and their order. -/
  others : e'.style.filter (·.1 != property) = e.style.filter (·.1 != property)
  order : value ≠ "" →
    e'.declared = if property ∈ e.declared then e.declared else e.declared ++ [property]
  rest : { e' with style := e.style } = e
  /-- The text lists what is declared. -/
  text : e'.styleText.getD "" = String.intercalate " " (e'.style.map fun d => d.1 ++ ": " ++ d.2 ++ ";")

theorem styleText_getD (e : Element) :
    e.styleText.getD "" = String.intercalate " " (e.style.map fun d => d.1 ++ ": " ++ d.2 ++ ";") := by
  unfold styleText declarationsText
  cases e.style <;> rfl

/-- **A property is declared in the place of its first declaration, or behind all others.** -/
theorem declares_declare (e : Element) (property value : String) :
    e.Declares property value (e.declare property value) := by
  by_cases hv : value = ""
  · have hstyle : e.declare property value = { e with style := e.style.filter (·.1 != property) } := by
      rw [declare, hv]
      rfl
    rw [hstyle]
    refine ⟨?_, fun h => absurd hv h, ?_, fun h => absurd hv h, rfl, styleText_getD _⟩
    · rw [if_pos hv, List.filter_filter]
      exact List.filter_eq_nil_iff.mpr fun d _ => by simp [bne]
    · rw [List.filter_filter]
      simp only [Bool.and_self]
  · have hstyle : e.declare property value =
        { e with style := writeDeclaration property value e.style } := by
      rw [declare, if_neg (by simpa [String.isEmpty_iff] using hv)]
    rw [hstyle]
    have hown := filter_eq_writeDeclaration property value e.style
    refine ⟨by rw [if_neg hv, hown], fun _ => ?_, filter_ne_writeDeclaration property value e.style,
      fun _ => map_fst_writeDeclaration property value e.style, rfl, styleText_getD _⟩
    rw [hown, List.cons_inj_right, ← List.length_eq_zero_iff, List.length_tail]
    omega

theorem DeclaresOnce.length_filter_le (h : e.DeclaresOnce) (property : String) :
    (e.style.filter (·.1 == property)).length ≤ 1 := by
  have hcount := List.nodup_iff_count_le_one.mp h property
  rw [declared, List.count, List.countP_map, List.countP_eq_length_filter] at hcount
  exact hcount

/-- **Where no property is declared twice, none is after one is declared.** -/
theorem DeclaresOnce.declare (h : e.DeclaresOnce) (property value : String) :
    (e.declare property value).DeclaresOnce := by
  have hd := e.declares_declare property value
  by_cases hv : value = ""
  · unfold DeclaresOnce declared
    rw [Element.declare, hv]
    exact h.sublist (List.filter_sublist.map _)
  · unfold DeclaresOnce
    rw [hd.order hv]
    split
    · exact h
    · rename_i hnew
      rw [List.nodup_append]
      refine ⟨h, List.nodup_singleton property, fun p hp q hq he => hnew ?_⟩
      rwa [← List.mem_singleton.mp hq, ← he]

theorem steady_declaresOnce : Store.Steady DeclaresOnce where
  bare _ _ _ := List.nodup_nil
  control _ _ h := h
  setAttr _ _ h := h
  removeAttr _ _ _ h := h
  declare _ property value h := h.declare property value

end Element

/-! ## Stores -/

namespace Store

variable {s : Store} {r : NodeRef} {e : Element}

/-- **A declaration for an element that is there is accepted, and changes no other node.** -/
theorem exists_setStyle (h : s.element? r = some e) (property value : String) :
    ∃ s', setStyle r property value s = .ok () s' ∧ s'.element? r = some (e.declare property value) ∧
      ∀ x, x ≠ r → s'.get? x = s.get? x := by
  have hr := element?_eq_some_iff.mp h
  refine ⟨_, updateElement_of_get? hr _, ?_, fun x hx => ?_⟩
  · rw [element?_eq_some_iff, get?_setData, if_pos rfl, hr]
    rfl
  · rw [get?_setData, if_neg hx]

end Store

end DomHost
