/-!
# Ordered forests

A forest is a list of trees, each a label over a forest of children, written in the form "first tree,
then the rest". Trees are addressed by a test on labels that at most one label of a forest passes.

* `toList`, `roots`, `size`: the labels in pre-order, those of the top level, their number;
* `find?`, `pathTo?`: a tree, and the way up from it;
* `prune`, `adopt`, `editChildren`, `relabel`: the edits, each of which leaves every other tree alone;
* `rename`: new labels in pre-order, drawn from a supply.
-/

namespace DomHost

/-- A list of trees with labels in `α`. -/
inductive Forest (α : Type) where
  | nil
  | node (label : α) (children next : Forest α)
deriving DecidableEq

namespace Forest

variable {α β σ : Type}

instance : Inhabited (Forest α) := ⟨nil⟩

/-! ## Views -/

/-- Labels in pre-order, in front of those of `tail`. -/
def toListAppend : Forest α → List α → List α
  | nil, tail => tail
  | node a c n, tail => a :: c.toListAppend (n.toListAppend tail)

/-- The labels in pre-order. -/
def toList (f : Forest α) : List α := f.toListAppend []

/-- The labels of the top level. -/
def roots : Forest α → List α
  | nil => []
  | node a _ n => a :: n.roots

/-- The number of labels. -/
def size : Forest α → Nat
  | nil => 0
  | node _ c n => c.size + n.size + 1

/-- The same shape with each label replaced. -/
def map (g : α → β) : Forest α → Forest β
  | nil => nil
  | node a c n => node (g a) (c.map g) (n.map g)

/-- A forest behind another. -/
def append : Forest α → Forest α → Forest α
  | nil, g => g
  | node a c n, g => node a c (n.append g)

instance : Append (Forest α) := ⟨append⟩

/-! ## Search -/

/-- The label that passes the test, with its children. -/
def find? (p : α → Bool) : Forest α → Option (α × Forest α)
  | nil => none
  | node a c n =>
    if p a then some (a, c)
    else match c.find? p with
      | some t => some t
      | none => n.find? p

/-- The labels from the one that passes the test up to the top, in front of `above`. -/
def pathTo? (p : α → Bool) : Forest α → List α → Option (List α)
  | nil, _ => none
  | node a c n, above =>
    if p a then some (a :: above)
    else match c.pathTo? p (a :: above) with
      | some path => some path
      | none => n.pathTo? p above

/-! ## Edits -/

/-- The forest without the tree whose label passes the test. -/
def prune (p : α → Bool) : Forest α → Forest α
  | nil => nil
  | node a c n => if p a then n.prune p else node a (c.prune p) (n.prune p)

/-- Puts a tree in front of the first top-level tree whose label passes the test, or at the end. -/
def adopt (before : α → Bool) (tree : α × Forest α) : Forest α → Forest α
  | nil => node tree.1 tree.2 nil
  | node a c n =>
    if before a then node tree.1 tree.2 (node a c n) else node a c (n.adopt before tree)

/-- Changes the children of the label that passes the test. -/
def editChildren (p : α → Bool) (g : Forest α → Forest α) : Forest α → Forest α
  | nil => nil
  | node a c n =>
    if p a then node a (g c) (n.editChildren p g)
    else node a (c.editChildren p g) (n.editChildren p g)

/-- Changes the label that passes the test. -/
def relabel (p : α → Bool) (g : α → α) : Forest α → Forest α
  | nil => nil
  | node a c n => node (if p a then g a else a) (c.relabel p g) (n.relabel p g)

/-- New labels for all old ones in pre-order, each drawn from a supply. -/
def rename (draw : α → σ → β × σ) : Forest α → σ → Forest β × σ
  | nil, s => (nil, s)
  | node a c n, s =>
    let (b, s) := draw a s
    let (c, s) := c.rename draw s
    let (n, s) := n.rename draw s
    (node b c n, s)

/-! ## Small laws -/

theorem toListAppend_eq (f : Forest α) (tail : List α) : f.toListAppend tail = f.toList ++ tail := by
  induction f generalizing tail with
  | nil => rfl
  | node a c n ihc ihn =>
    simp only [toList, toListAppend, List.cons_append]
    rw [ihc, ihn, ihc (n.toListAppend []), ihn [], List.append_nil, List.append_assoc]

@[simp] theorem toList_nil : (nil : Forest α).toList = [] := rfl

@[simp] theorem toList_node (a : α) (c n : Forest α) :
    (node a c n).toList = a :: (c.toList ++ n.toList) := by
  simp only [toList, toListAppend]
  rw [toListAppend_eq c]
  rfl

theorem length_toList (f : Forest α) : f.toList.length = f.size := by
  induction f with
  | nil => rfl
  | node a c n ihc ihn => simp [size, ihc, ihn]

end Forest

end DomHost
