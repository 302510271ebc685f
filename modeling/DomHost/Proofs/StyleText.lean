import DomHost.Proofs.Name
import DomHost.Proofs.Store.StyleAttribute
import Mathlib

/-!
# Declarations as text

A style attribute is cut at semicolons, each piece at its first colon, and white space at the ends does not count. So
what is read has no semicolons, names without colons and no white space at the ends. The text of declarations puts
back just the separators, and reading it finds the same declarations.

* `Text.trimChars_trimChars`, `Text.trimChars_map_toLower`: white space at the ends;
* `Markup.splitAll_eq_splitOn`, `Markup.notMem_of_mem_splitAll`: pieces between separators;
* `Markup.Declarable`, **`Markup.declarable_of_mem`**: declarations that are read;
* **`Markup.filterMap_declarationsText`**: their text is read as the same declarations;
* **`Markup.declarations_styleText`**: a style attribute that is written and read again.
-/

namespace DomHost

/-! ## White space -/

namespace Text

theorem isBlank_of_isAlpha {c : Char} (h : c.isAlpha = true) : isBlank c = false := by
  have hletter := toNat_of_isAlpha h
  simp only [isBlank, Bool.or_eq_false_iff, Bool.and_eq_false_iff, decide_eq_false_iff_not, beq_eq_false_iff_ne]
  omega

/-- Only letters have another lower case. -/
theorem toLower_eq_self_or (c : Char) : c.toLower = c ∨ c.isAlpha = true ∧ c.toLower.isAlpha = true := by
  cases h : c.isUpper with
  | false => exact Or.inl (Char.toLower_eq_of_not_isUpper (by simp [h]))
  | true =>
    have hletter : c.isAlpha = true := by simp [Char.isAlpha, h]
    exact Or.inr ⟨hletter, (Char.isAlpha_toLower_eq_isAlpha c).trans hletter⟩

theorem isBlank_toLower (c : Char) : isBlank c.toLower = isBlank c := by
  rcases toLower_eq_self_or c with h | ⟨hc, hlower⟩
  · rw [h]
  · rw [isBlank_of_isAlpha hc, isBlank_of_isAlpha hlower]

/-- A separator that stands in lower-cased text stood there before. -/
theorem mem_of_mem_map_toLower {sep : Char} {cs : List Char} (hsep : sep.isAlpha = false)
    (h : sep ∈ cs.map Char.toLower) : sep ∈ cs := by
  obtain ⟨c, hc, rfl⟩ := List.mem_map.mp h
  rcases toLower_eq_self_or c with he | ⟨-, hlower⟩
  · exact he.symm ▸ hc
  · exact absurd hlower (by rw [hsep]; exact Bool.false_ne_true)

theorem trimChars_map_toLower (cs : List Char) :
    trimChars (cs.map Char.toLower) = (trimChars cs).map Char.toLower := by
  have hblank : isBlank ∘ Char.toLower = isBlank := funext isBlank_toLower
  simp only [trimChars, List.dropWhile_map, ← List.map_reverse, hblank]

theorem trimChars_trimChars (cs : List Char) : trimChars (trimChars cs) = trimChars cs := by
  -- What is left begins as it did when only the beginning was cut.
  have hhead : (trimChars cs).dropWhile isBlank = trimChars cs := by
    obtain ⟨back, hback⟩ := List.rdropWhile_prefix isBlank (cs.dropWhile isBlank)
    cases hcut : trimChars cs with
    | nil => rfl
    | cons c rest =>
      have hdrop : cs.dropWhile isBlank = c :: (rest ++ back) := by
        rw [← hback]
        change trimChars cs ++ back = _
        rw [hcut, List.cons_append]
      have hc := List.head_dropWhile_not isBlank (l := cs) (by rw [hdrop]; exact List.cons_ne_nil _ _)
      simp only [hdrop, List.head_cons] at hc
      rw [List.dropWhile_cons_of_neg (by rw [hc]; exact Bool.false_ne_true)]
  calc trimChars (trimChars cs) = ((trimChars cs).dropWhile isBlank).rdropWhile isBlank := rfl
    _ = (trimChars cs).rdropWhile isBlank := by rw [hhead]
    _ = trimChars cs := List.rdropWhile_idempotent isBlank _

theorem trimChars_replicate_append (n : Nat) (cs : List Char) :
    trimChars (List.replicate n ' ' ++ cs) = trimChars cs := by
  have hall : ∀ c ∈ List.replicate n ' ', isBlank c = true := fun c hc => by
    rw [List.eq_of_mem_replicate hc]
    decide
  rw [trimChars, List.dropWhile_append_of_pos hall, trimChars]

theorem mem_of_mem_trimChars {c : Char} {cs : List Char} (h : c ∈ trimChars cs) : c ∈ cs := by
  have hdrop := (List.dropWhile_sublist _).mem (List.mem_reverse.mp h)
  exact (List.dropWhile_sublist _).mem (List.mem_reverse.mp hdrop)

end Text

namespace Markup

/-! ## Pieces -/

theorem splitAll_eq_splitOn (sep : Char) (cs : List Char) : splitAll sep cs = cs.splitOn sep := by
  induction cs with
  | nil => rfl
  | cons c cs ih =>
    obtain ⟨part, parts, hparts⟩ := List.exists_cons_of_ne_nil (List.splitOn_ne_nil sep cs)
    rw [splitAll, ih, List.splitOn_cons_eq_if_modifyHead, hparts]
    simp only [beq_iff_eq, List.modifyHead_cons]

theorem notMem_of_mem_splitAll {sep : Char} {cs part : List Char} (h : part ∈ splitAll sep cs) : sep ∉ part := by
  rw [splitAll_eq_splitOn] at h
  induction cs generalizing part with
  | nil =>
    rw [List.splitOn_nil, List.mem_singleton] at h
    exact h ▸ List.not_mem_nil
  | cons c cs ih =>
    obtain ⟨first, parts, hparts⟩ := List.exists_cons_of_ne_nil (List.splitOn_ne_nil sep cs)
    rw [List.splitOn_cons_eq_if_modifyHead, hparts] at h
    simp only [hparts, List.mem_cons, forall_eq_or_imp] at ih
    split at h
    · rcases List.mem_cons.mp h with rfl | h
      · exact List.not_mem_nil
      · exact (List.mem_cons.mp h).elim (fun he => he ▸ ih.1) (ih.2 part)
    · rename_i hc
      rcases List.mem_cons.mp h with rfl | h
      · rw [List.mem_cons, not_or]
        exact ⟨fun he => hc (beq_iff_eq.mpr he.symm), ih.1⟩
      · exact ih.2 part h

/-- The first colon of a declaration is found as that of a name is. -/
theorem splitFirst?_colon (cs : List Char) : splitFirst? ':' cs = QualifiedName.splitColon cs := by
  cases hs : QualifiedName.splitColon cs with
  | none =>
    rw [splitFirst?, if_neg (by simpa using QualifiedName.notMem_of_splitColon hs)]
  | some parts =>
    obtain ⟨rfl, hbefore⟩ := QualifiedName.splitColon_eq_some_iff.mp hs
    have hall : ∀ c ∈ parts.1, (c != ':') = true := fun c hc => bne_iff_ne.mpr fun he => hbefore (he ▸ hc)
    rw [splitFirst?, List.takeWhile_append_of_pos hall, List.dropWhile_append_of_pos hall]
    simp

/-! ## Declarations -/

/-- A declaration as it is read: trimmed, with its name in lower case, and without the separators. -/
structure Declarable (d : String × String) : Prop where
  name_ne : d.1 ≠ ""
  value_ne : d.2 ≠ ""
  name : Text.trimChars d.1.toList = d.1.toList
  value : Text.trimChars d.2.toList = d.2.toList
  lower : lowered d.1.toList = d.1
  colon : ':' ∉ d.1.toList
  semicolon : ';' ∉ d.1.toList ∧ ';' ∉ d.2.toList

theorem declarable_of_declaration? {cs : List Char} {d : String × String} (hcs : ';' ∉ cs)
    (h : declaration? cs = some d) : Declarable d := by
  unfold declaration? at h
  rw [splitFirst?_colon] at h
  obtain ⟨⟨name, value⟩, hsplit, hread⟩ := Option.bind_eq_some_iff.mp h
  obtain ⟨rfl, hcolon⟩ := QualifiedName.splitColon_eq_some_iff.mp hsplit
  simp only [List.mem_append, List.mem_cons, not_or] at hcs
  dsimp only at hread
  split at hread
  · cases hread
  · rename_i hparts
    cases hread
    simp only [Bool.or_eq_true, String.isEmpty_iff, not_or] at hparts
    -- A separator in the name would stand in the text that it is cut from.
    have hname : ∀ sep : Char, sep.isAlpha = false → sep ∉ name →
        sep ∉ (lowered (Text.trimChars name)).toList := fun sep hsep hmem h => by
      rw [lowered, String.toList_ofList] at h
      exact hmem (Text.mem_of_mem_trimChars (Text.mem_of_mem_map_toLower hsep h))
    refine ⟨hparts.1, hparts.2, ?_, ?_, ?_, hname ':' rfl hcolon, hname ';' rfl hcs.1, ?_⟩
    · rw [lowered, String.toList_ofList, Text.trimChars_map_toLower, Text.trimChars_trimChars]
    · rw [String.toList_ofList, Text.trimChars_trimChars]
    · rw [lowered, lowered, String.toList_ofList, List.map_map]
      exact congrArg String.ofList (List.map_congr_left fun c _ => Char.toLower_toLower_eq_toLower c)
    · rw [String.toList_ofList]
      exact fun h => hcs.2.2 (Text.mem_of_mem_trimChars h)

/-- **What is read from a text is declarable.** -/
theorem declarable_of_mem {s : String} {d : String × String} (h : d ∈ declarations s) : Declarable d := by
  obtain ⟨part, hpart, hd⟩ := List.mem_filterMap.mp h
  exact declarable_of_declaration? (notMem_of_mem_splitAll hpart) hd

/-- A declaration is read from its text, with spaces in front of it or not. -/
theorem Declarable.declaration?_eq {d : String × String} (h : Declarable d) (n : Nat) :
    declaration? (List.replicate n ' ' ++ d.1.toList ++ ':' :: ' ' :: d.2.toList) = some d := by
  have hcolon : ':' ∉ List.replicate n ' ' ++ d.1.toList := by
    rw [List.mem_append, not_or]
    exact ⟨fun hmem => absurd (List.eq_of_mem_replicate hmem) (by decide), h.colon⟩
  have hvalue : Text.trimChars (' ' :: d.2.toList) = d.2.toList :=
    (Text.trimChars_replicate_append 1 d.2.toList).trans h.value
  unfold declaration?
  rw [splitFirst?_colon, QualifiedName.splitColon_append hcolon]
  simp only [Option.bind_eq_bind, Option.bind_some, Text.trimChars_replicate_append, h.name, h.lower, hvalue,
    String.ofList_toList, String.isEmpty_iff, Bool.or_eq_true, h.name_ne, h.value_ne, or_self, if_false]

theorem toList_declarationsText_cons (d : String × String) (ds : List (String × String)) :
    ∃ n, (Element.declarationsText (d :: ds)).toList =
      d.1.toList ++ ':' :: ' ' :: d.2.toList ++ ';' ::
        (List.replicate n ' ' ++ (Element.declarationsText ds).toList) := by
  unfold Element.declarationsText
  cases ds with
  | nil => exact ⟨0, by simp [String.toList_append]⟩
  | cons d' ds => exact ⟨1, by simp [String.toList_append]⟩

/-- **The text of declarations is read as the same declarations.** Spaces in front of it do not count. -/
theorem filterMap_declarationsText {ds : List (String × String)} (h : ∀ d ∈ ds, Declarable d) (n : Nat) :
    (splitAll ';' (List.replicate n ' ' ++ (Element.declarationsText ds).toList)).filterMap declaration? = ds := by
  induction ds generalizing n with
  | nil =>
    have hnone : ∀ sep : Char, sep ≠ ' ' → sep ∉ List.replicate n ' ' := fun sep hsep hmem =>
      hsep (List.eq_of_mem_replicate hmem)
    have hblank : declaration? (List.replicate n ' ') = none := by
      unfold declaration?
      rw [splitFirst?_colon, QualifiedName.splitColon_eq_none_iff.mpr (hnone ':' (by decide))]
      rfl
    have htext : (Element.declarationsText []).toList = [] := rfl
    rw [htext, List.append_nil, splitAll_eq_splitOn, List.splitOn_eq_singleton (hnone ';' (by decide))]
    simp [hblank]
  | cons d ds ih =>
    obtain ⟨hd, hds⟩ := List.forall_mem_cons.mp h
    obtain ⟨k, htext⟩ := toList_declarationsText_cons d ds
    have hsemicolon : ';' ∉ List.replicate n ' ' ++ (d.1.toList ++ ':' :: ' ' :: d.2.toList) := by
      simp [hd.semicolon]
    rw [htext, ← List.append_assoc, splitAll_eq_splitOn,
      List.splitOn_append_cons_self_of_not_mem hsemicolon, ← splitAll_eq_splitOn, ← List.append_assoc,
      List.filterMap_cons_some (hd.declaration?_eq n), ih hds k]

/-- **A style attribute that is written and read again declares the same**: the start tag shows the declarations that
were read from a text as an attribute `style`, and from its value they are read in the same order with the same
values. -/
theorem declarations_styleText (t : String) (e : Element) (he : e.style = declarations t) (hne : declarations t ≠ []) :
    ∃ s, e.styleText = some s ∧ declarations s = declarations t ∧ ("style", s) ∈ e.written ∧
      ∀ e', (adoptAttribute e' (.plain "style" s)).style = e.style := by
  have htext : e.styleText = some (Element.declarationsText e.style) := by
    rw [Element.styleText, if_neg (by simpa [he] using hne)]
  have hread : declarations (Element.declarationsText e.style) = declarations t := by
    rw [he]
    exact filterMap_declarationsText (fun d hd => declarable_of_mem hd) 0
  refine ⟨_, htext, hread, ?_, fun e' => hread.trans he.symm⟩
  rw [Element.written, htext]
  simp

/-- Stray separators and white space go, a colon in a value stays. -/
theorem exists_declarations_styleText :
    let t := "Color:  red ;; top\u00a0: 0;background: url(a:b) ; x"
    let e : Element := ⟨"div", none, none, [], declarations t, {}⟩
    e.styleText = some "color: red; top: 0; background: url(a:b);" ∧ declarations t ≠ [] ∧
      ∃ s, e.styleText = some s ∧ declarations s = declarations t ∧ ("style", s) ∈ e.written ∧
        ∀ e', (adoptAttribute e' (.plain "style" s)).style = e.style := by
  intro t e
  have hne : declarations t ≠ [] := by decide +kernel
  exact ⟨by decide +kernel, hne, declarations_styleText t e rfl hne⟩

end Markup

end DomHost
