/-!
# Markup as it comes in

Markup tells letters and white space apart as ASCII does. It comes in as blocks of bytes. A character
that crosses the end of a block is a piece of its own, and what lies between such characters and the
ends of the blocks are the others. A byte order mark at the start of a piece is no part of the text.

* `isSpace`, `lowered`, `shown`: the characters of markup;
* `withoutMarks`: a text without such marks;
* `lineFeeds`: the same text with all line ends as line feeds;
* `incoming`: both;
* **`filter_withoutMarks`**, **`not_mem_lineFeeds`**: nothing but such marks is dropped, and no carriage
  return is left.
-/

namespace DomHost.Markup

/-! ## Characters -/

/-- White space between tokens and in tags. -/
def isSpace (c : Char) : Bool := c == ' ' || c == '\n' || c == '\t' || c == '\x0c' || c == '\r'

/-- A text of lowercase ASCII letters where it had uppercase ones. -/
def lowered (cs : List Char) : String := String.ofList (cs.map Char.toLower)

/-- A character, or the replacement character in place of the one with number zero. -/
def shown (c : Char) : Char := if c == '\x00' then '\ufffd' else c

/-! ## Texts -/

/-- The number of bytes in a block. -/
def blockSize : Nat := 4096

/-- The character that marks the byte order. -/
def byteOrderMark : Char := '\ufeff'

/-- A text without the byte order marks at the starts of its pieces, from the byte `start` on; `cut`
says whether the character in front of it crossed the end of a block. -/
def withoutMarks (start : Nat) (cut : Bool) : List Char → List Char
  | [] => []
  | c :: cs =>
    let next := start + c.utf8Size
    let crosses := start / blockSize != (next - 1) / blockSize
    let rest := withoutMarks next crosses cs
    if (cut || crosses || start % blockSize == 0) && c == byteOrderMark then rest else c :: rest

/-- Line ends as line feeds. -/
def lineFeeds : List Char → List Char
  | '\r' :: '\n' :: cs => '\n' :: lineFeeds cs
  | '\r' :: cs => '\n' :: lineFeeds cs
  | c :: cs => c :: lineFeeds cs
  | [] => []

/-- No text that is read has a carriage return. -/
theorem not_mem_lineFeeds (cs : List Char) : '\r' ∉ lineFeeds cs := by
  fun_induction lineFeeds cs with
  | case1 cs ih => simp [ih]
  | case2 cs _ ih => simp [ih]
  | case3 c cs _ hc ih => simp_all [eq_comm]
  | case4 => simp

/-- Only byte order marks are dropped. -/
theorem filter_withoutMarks (start : Nat) (cut : Bool) (cs : List Char) :
    (withoutMarks start cut cs).filter (· != byteOrderMark) = cs.filter (· != byteOrderMark) := by
  induction cs generalizing start cut with
  | nil => rfl
  | cons c cs ih =>
    rw [withoutMarks]
    split
    · rename_i h
      have hc : c = byteOrderMark := by simpa using (Bool.and_eq_true_iff.mp h).2
      simp [hc, ih]
    · simp [List.filter_cons, ih]

/-- A text as it is read. -/
def incoming (s : String) : List Char := lineFeeds (withoutMarks 0 false s.toList)

end DomHost.Markup
