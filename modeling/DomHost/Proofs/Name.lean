import DomHost.Name
import Mathlib.Data.List.TakeWhile

/-!
# Qualified names

A qualified name is written as a text without colons, or as two of them around one. The characters of the whole name
are looked at before it is split, so nothing looks again at the character behind the colon: a digit, a hyphen or a
full stop may stand there, though a name begins with none of them.

* `isName_append_colon`, `all_isNameChar_iff`: a name with a colon in it, and what a name goes on with;
* `QualifiedName.splitColon_eq_some_iff`, **`QualifiedName.split_eq_ok_iff`**: the parts of a name;
* `QualifiedName.Agrees`, `QualifiedName.agrees_iff`: parts that agree with a namespace;
* `QualifiedName.Spells`, `QualifiedName.Named`, `QualifiedName.Trailing`: how the parts are written;
* **`QualifiedName.extract_eq_ok_iff`**: the names that are accepted, with their parts;
* **`QualifiedName.not_forall_extract_named`**: a local name that is accepted and is no name.
-/

namespace DomHost

/-! ## Characters -/

/-- A digit, a hyphen or a full stop. -/
def isTrailing (c : Char) : Bool := c.isDigit || c == '-' || c == '.'

theorem isNameChar_eq (c : Char) : isNameChar c = (isNameStart c || isTrailing c) := by
  simp only [isNameChar, isTrailing, Bool.or_assoc]

theorem toNat_of_isAlpha {c : Char} (h : c.isAlpha = true) :
    (65 ≤ c.toNat ∧ c.toNat ≤ 90) ∨ (97 ≤ c.toNat ∧ c.toNat ≤ 122) := by
  change (decide (c.val ≥ 'A'.val ∧ c.val ≤ 'Z'.val) || decide (c.val ≥ 'a'.val) && decide (c.val ≤ 'z'.val)) =
    true at h
  simp only [Bool.or_eq_true, Bool.and_eq_true, decide_eq_true_eq, UInt32.le_iff_toNat_le, ge_iff_le] at h
  exact h

/-- No name begins with a character that it may only go on with. -/
theorem isNameStart_eq_false {c : Char} (h : isTrailing c = true) : isNameStart c = false := by
  simp only [isTrailing, Char.isDigit, Bool.or_eq_true, Bool.and_eq_true, beq_iff_eq, decide_eq_true_eq,
    UInt32.le_iff_toNat_le] at h
  rcases h with (h | rfl) | rfl
  · rw [← Bool.not_eq_true]
    intro hs
    simp only [isNameStart, Bool.or_eq_true, beq_iff_eq, decide_eq_true_eq] at hs
    change 48 ≤ c.toNat ∧ c.toNat ≤ 57 at h
    have hunderscore : '_'.toNat = 95 := rfl
    have hcolon : ':'.toNat = 58 := rfl
    rcases hs with ((halpha | rfl) | rfl) | hs
    · have hletter := toNat_of_isAlpha halpha
      omega
    · omega
    · omega
    · omega
  · decide
  · decide

theorem validateName_eq_ok_iff {name : String} : validateName name = .ok () ↔ isName name.toList = true := by
  unfold validateName
  split
  · exact iff_of_true rfl ‹_›
  · exact iff_of_false (fun h => nomatch h) ‹_›

/-- What is in front of the colon begins the name; what is behind it only goes on. -/
theorem isName_append_colon {before : List Char} (h : before ≠ []) (behind : List Char) :
    isName (before ++ ':' :: behind) = (isName before && behind.all isNameChar) := by
  have hcolon : isNameChar ':' = true := by decide
  cases before with
  | nil => exact absurd rfl h
  | cons c cs =>
    simp only [List.cons_append, isName, List.all_append, List.all_cons, hcolon, Bool.true_and, Bool.and_assoc]

/-- What a name goes on with is a name, unless its first character is one that no name begins with. -/
theorem all_isNameChar_iff {c : Char} {cs : List Char} :
    (c :: cs).all isNameChar = true ↔
      isName (c :: cs) = true ∨ isTrailing c = true ∧ cs.all isNameChar = true := by
  rw [List.all_cons, isNameChar_eq, isName]
  simp only [Bool.and_eq_true, Bool.or_eq_true]
  exact or_and_right

namespace QualifiedName

variable {ns : Option String} {name : String} {q : QualifiedName}

/-! ## Parts -/

theorem eq_of_splitColon {cs before behind : List Char} (h : splitColon cs = some (before, behind)) :
    cs = before ++ ':' :: behind := by
  unfold splitColon at h
  split at h
  · cases h
  · rename_i c rest hdrop
    have hhead := List.head_dropWhile_not (l := cs) (· != ':') (by rw [hdrop]; exact List.cons_ne_nil c rest)
    simp only [hdrop, List.head_cons, bne_eq_false_iff_eq] at hhead
    subst hhead
    cases h
    rw [← hdrop, List.takeWhile_append_dropWhile]

theorem notMem_of_splitColon {cs : List Char} (h : splitColon cs = none) : ':' ∉ cs := by
  unfold splitColon at h
  split at h
  · rename_i hdrop
    exact fun hmem => by simpa using List.dropWhile_eq_nil_iff.mp hdrop _ hmem
  · cases h

theorem splitColon_append {before : List Char} (h : ':' ∉ before) (behind : List Char) :
    splitColon (before ++ ':' :: behind) = some (before, behind) := by
  have hall : ∀ c ∈ before, (c != ':') = true := fun c hc => bne_iff_ne.mpr fun he => h (he ▸ hc)
  unfold splitColon
  rw [List.dropWhile_append_of_pos hall, List.takeWhile_append_of_pos hall]
  simp

theorem splitColon_eq_none_iff {cs : List Char} : splitColon cs = none ↔ ':' ∉ cs := by
  refine ⟨notMem_of_splitColon, fun h => ?_⟩
  cases hs : splitColon cs with
  | none => rfl
  | some parts => exact absurd (by simp [eq_of_splitColon hs]) h

theorem splitColon_eq_some_iff {cs before behind : List Char} :
    splitColon cs = some (before, behind) ↔ cs = before ++ ':' :: behind ∧ ':' ∉ before := by
  constructor
  · intro h
    refine ⟨eq_of_splitColon h, fun hmem => ?_⟩
    have htake : before = cs.takeWhile (· != ':') := by
      unfold splitColon at h
      split at h
      · cases h
      · exact (congrArg Prod.fst (Option.some.inj h)).symm
    exact absurd (List.mem_takeWhile_imp (htake ▸ hmem)) (by decide)
  · rintro ⟨rfl, h⟩
    exact splitColon_append h behind

/-- Behind a qualifier stands a colon. -/
theorem toList_qualified (p localName : String) :
    (qualified (some p) localName).toList = p.toList ++ ':' :: localName.toList := by
  simp [qualified]

theorem split_of_notMem (h : ':' ∉ name.toList) : split name = .ok (none, name) := by
  unfold split
  rw [splitColon_eq_none_iff.mpr h]

theorem split_qualified {p localName : String} (hp : ':' ∉ p.toList) (hl : ':' ∉ localName.toList)
    (hpne : p.toList ≠ []) (hlne : localName.toList ≠ []) :
    split (qualified (some p) localName) = .ok (some p, localName) := by
  unfold split
  rw [toList_qualified, splitColon_append hp]
  simp [hpne, hlne, hl, String.ofList_toList]

/-- **A name is split into the parts that it is written from.** Beside a colon neither part is empty. -/
theorem split_eq_ok_iff {qualifier : Option String} {localName : String} :
    split name = .ok (qualifier, localName) ↔
      qualified qualifier localName = name ∧ ':' ∉ localName.toList ∧
        ∀ p ∈ qualifier, ':' ∉ p.toList ∧ p.toList ≠ [] ∧ localName.toList ≠ [] := by
  constructor
  · intro h
    cases hs : splitColon name.toList with
    | none =>
      rw [split_of_notMem (notMem_of_splitColon hs)] at h
      cases h
      exact ⟨rfl, notMem_of_splitColon hs, fun p hp => nomatch hp⟩
    | some parts =>
      obtain ⟨before, behind⟩ := parts
      obtain ⟨htext, hbefore⟩ := splitColon_eq_some_iff.mp hs
      simp only [split, hs] at h
      split at h
      · cases h
      · rename_i hparts
        simp only [Bool.or_eq_true, List.isEmpty_iff, List.contains_iff_mem, not_or] at hparts
        cases h
        refine ⟨String.toList_injective ?_, by simpa using hparts.2, ?_⟩
        · simp [toList_qualified, htext]
        · rintro p hp
          cases hp
          simpa using ⟨hbefore, hparts.1⟩
  · rintro ⟨rfl, hl, hq⟩
    cases qualifier with
    | none => exact split_of_notMem hl
    | some p =>
      obtain ⟨hp, hpne, hlne⟩ := hq p rfl
      exact split_qualified hp hl hpne hlne

/-- Parts of a name that agree with the namespace it is used in. The empty namespace is none. -/
structure Agrees (q : QualifiedName) (ns : Option String) (name : String) : Prop where
  ns : q.ns = effectiveNs ns
  bound : q.qualifier.isSome → q.ns.isSome
  xml : q.qualifier = some "xml" → q.ns = some xmlNs
  declares : (name = "xmlns" ∨ q.qualifier = some "xmlns") ↔ q.ns = some xmlnsNs

theorem agrees_iff : q.Agrees ns name ↔ q.ns = effectiveNs ns ∧ agrees name q.qualifier q.ns = true := by
  have hdeclares : ((name == "xmlns" || q.qualifier == some "xmlns") == (q.ns == some xmlnsNs)) = true ↔
      ((name = "xmlns" ∨ q.qualifier = some "xmlns") ↔ q.ns = some xmlnsNs) := by
    rw [beq_iff_eq, Bool.eq_iff_iff, Bool.or_eq_true, beq_iff_eq, beq_iff_eq, beq_iff_eq]
  have hxml : (!(q.qualifier == some "xml" && q.ns != some xmlNs)) = true ↔
      (q.qualifier = some "xml" → q.ns = some xmlNs) := by
    simp [imp_iff_not_or]
  have hbound : (!(q.qualifier.isSome && q.ns.isNone)) = true ↔ (q.qualifier.isSome → q.ns.isSome) := by
    cases q.qualifier <;> cases q.ns <;> simp
  rw [agrees, Bool.and_eq_true, Bool.and_eq_true, hbound, hxml, hdeclares]
  constructor
  · intro h
    exact ⟨h.ns, ⟨h.bound, h.xml⟩, h.declares⟩
  · rintro ⟨h, ⟨h1, h2⟩, h3⟩
    exact ⟨h, h1, h2, h3⟩

/-- The parts, none with a colon, are what the name is written from. -/
structure Spells (q : QualifiedName) (name : String) : Prop where
  text : qualified q.qualifier q.localName = name
  localName : ':' ∉ q.localName.toList
  qualifier : ∀ p ∈ q.qualifier, ':' ∉ p.toList

/-- Each part is a name. -/
def Named (q : QualifiedName) : Prop :=
  validateName q.localName = .ok () ∧ ∀ p ∈ q.qualifier, validateName p = .ok ()

/-- The qualifier is a name, and the local name one but for its first character, with which no name begins. -/
def Trailing (q : QualifiedName) : Prop :=
  (∃ p ∈ q.qualifier, validateName p = .ok ()) ∧
    ∃ c cs, q.localName.toList = c :: cs ∧ isTrailing c = true ∧ cs.all isNameChar = true

theorem Trailing.not_named (h : q.Trailing) : ¬ q.Named := by
  obtain ⟨-, c, cs, hl, hc, -⟩ := h
  rintro ⟨hname, -⟩
  rw [validateName_eq_ok_iff, hl, isName, isNameStart_eq_false hc] at hname
  exact Bool.noConfusion hname

theorem toList_ne_nil_of_validateName (h : validateName name = .ok ()) : name.toList ≠ [] := fun he => by
  have hname := validateName_eq_ok_iff.mp h
  rw [he] at hname
  cases hname

/-- Neither part is empty beside a colon. -/
theorem ne_nil_of_named_or_trailing (h : q.Named ∨ q.Trailing) :
    ∀ p ∈ q.qualifier, p.toList ≠ [] ∧ q.localName.toList ≠ [] := by
  rintro p hp
  rcases h with ⟨hl, hq⟩ | ⟨⟨p', hp', hq⟩, c, cs, hl, -⟩
  · exact ⟨toList_ne_nil_of_validateName (hq p hp), toList_ne_nil_of_validateName hl⟩
  · obtain rfl := Option.mem_unique hp hp'
    exact ⟨toList_ne_nil_of_validateName hq, hl ▸ List.cons_ne_nil c cs⟩

/-- Of what is split, the whole is a name if each part is one, or if the local name is one but for its beginning. -/
theorem validateName_iff (h : split name = .ok (q.qualifier, q.localName)) :
    validateName name = .ok () ↔ q.Named ∨ q.Trailing := by
  obtain ⟨htext, -, hq⟩ := split_eq_ok_iff.mp h
  unfold Named Trailing
  cases hqualifier : q.qualifier with
  | none =>
    rw [hqualifier] at htext
    have hname : q.localName = name := htext
    simp [hname]
  | some p =>
    obtain ⟨-, hpne, hlne⟩ := hq p hqualifier
    obtain ⟨c, cs, hcs⟩ := List.exists_cons_of_ne_nil hlne
    rw [hqualifier] at htext
    rw [← htext, validateName_eq_ok_iff, toList_qualified, isName_append_colon hpne, Bool.and_eq_true, hcs,
      all_isNameChar_iff]
    have hnamed : (validateName q.localName = .ok () ∧ ∀ p' ∈ some p, validateName p' = .ok ()) ↔
        isName p.toList = true ∧ isName (c :: cs) = true := by
      simp [validateName_eq_ok_iff, hcs, and_comm]
    have htrailing : ((∃ p' ∈ some p, validateName p' = .ok ()) ∧
        ∃ c' cs', c :: cs = c' :: cs' ∧ isTrailing c' = true ∧ cs'.all isNameChar = true) ↔
        isName p.toList = true ∧ isTrailing c = true ∧ cs.all isNameChar = true := by
      refine and_congr (by simp [validateName_eq_ok_iff]) ⟨?_, fun h => ⟨c, cs, rfl, h⟩⟩
      rintro ⟨c', cs', he, h⟩
      cases he
      exact h
    rw [hnamed, htrailing]
    exact and_or_left

theorem extract_eq_ok_iff_split :
    extract ns name = .ok q ↔ validateName name = .ok () ∧ split name = .ok (q.qualifier, q.localName) ∧
      q.ns = effectiveNs ns ∧ agrees name q.qualifier q.ns = true := by
  unfold extract
  cases hname : validateName name with
  | error err => exact iff_of_false (fun h => nomatch h) fun h => nomatch h.1
  | ok u =>
    cases hsplit : split name with
    | error err => exact iff_of_false (fun h => nomatch h) fun h => nomatch h.2.1
    | ok parts =>
      change (if agrees name parts.1 (effectiveNs ns) then Except.ok ⟨parts.1, parts.2, effectiveNs ns⟩
        else Except.error (DomError.namespaceMismatch name (effectiveNs ns))) = .ok q ↔ _
      constructor
      · intro h
        split at h
        · rename_i hagrees
          cases h
          exact ⟨rfl, rfl, rfl, hagrees⟩
        · cases h
      · rintro ⟨-, hparts, hns, hagrees⟩
        cases hparts
        rw [← hns, if_pos hagrees]

/-- **A name is accepted in a namespace just if it is written from parts that agree with the namespace, and each of
them is a name, or the local name behind a qualifier is one but for its first character.** The answer is these parts. -/
theorem extract_eq_ok_iff (ns : Option String) (name : String) (q : QualifiedName) :
    (extract ns name = .ok q ↔ q.Spells name ∧ q.Agrees ns name ∧ (q.Named ∨ q.Trailing)) ∧
      (q.Trailing → ¬ q.Named) := by
  refine ⟨?_, Trailing.not_named⟩
  rw [extract_eq_ok_iff_split, agrees_iff]
  constructor
  · rintro ⟨hname, hsplit, hagrees⟩
    obtain ⟨htext, hl, hq⟩ := split_eq_ok_iff.mp hsplit
    exact ⟨⟨htext, hl, fun p hp => (hq p hp).1⟩, hagrees, (validateName_iff hsplit).mp hname⟩
  · rintro ⟨hspells, hagrees, hparts⟩
    have hsplit : split name = .ok (q.qualifier, q.localName) :=
      split_eq_ok_iff.mpr ⟨hspells.text, hspells.localName, fun p hp =>
        ⟨hspells.qualifier p hp, ne_nil_of_named_or_trailing hparts p hp⟩⟩
    exact ⟨(validateName_iff hsplit).mpr hparts, hsplit, hagrees⟩

/-- **A local name that is no name is accepted behind a qualifier.** -/
theorem not_forall_extract_named : ¬ ∀ (ns : Option String) (name : String) (q : QualifiedName),
    extract ns name = .ok q ↔ q.Spells name ∧ q.Agrees ns name ∧ q.Named := by
  intro H
  have hrun : extract (some svgNs) "x:1" = .ok ⟨some "x", "1", some svgNs⟩ := by decide +kernel
  have hnamed : validateName "1" = .ok () := ((H _ _ _).mp hrun).2.2.1
  exact absurd hnamed (by decide +kernel)

end QualifiedName

end DomHost
