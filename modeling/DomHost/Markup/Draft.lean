import DomHost.Markup.Item
import DomHost.Name

/-!
# Drafts

A draft is a forest that is being built. Its branches are numbered, so that one can be opened, moved and
written to long after it was added; the branch number zero is the document itself.

* `Draft`, `Branch`: the branches, each with the one above it and those below it;
* `Spot`: a place between branches;
* `Draft.create`, `Draft.put`, `Draft.write`, `Draft.detach`, `Draft.hand`: the edits;
* `Draft.below`: the finished forest below a branch.
-/

namespace DomHost.Markup

/-- A branch: what stands there, the branch above it, and those below it, the last one first. -/
structure Branch where
  item? : Option Item := none
  parent? : Option Nat := none
  children : List Nat := []

instance : Inhabited Branch := ⟨{}⟩

/-- A forest that is being built. -/
structure Draft where
  branches : Array Branch := #[{}]

/-- A place for a branch: behind those below another one, or in front of another one. -/
inductive Spot where
  | inside (id : Nat)
  | before (id : Nat)
deriving DecidableEq

namespace Draft

/-- The branch with a number. -/
def get (d : Draft) (id : Nat) : Branch := d.branches.getD id {}

/-- Changes the branch with a number. -/
def change (d : Draft) (id : Nat) (f : Branch → Branch) : Draft := ⟨d.branches.modify id f⟩

/-- Adds a branch that stands nowhere yet. -/
def create (d : Draft) (i : Item) : Nat × Draft :=
  (d.branches.size, ⟨d.branches.push { item? := some i }⟩)

/-- Puts a branch behind the first of two in a list that has the last one first. -/
def insertBefore (sibling id : Nat) : List Nat → List Nat
  | [] => []
  | c :: cs => if c = sibling then c :: id :: cs else c :: insertBefore sibling id cs

/-- Puts a branch that stands nowhere at a spot. There is no spot in front of a branch that stands
nowhere. -/
def put (d : Draft) (id : Nat) : Spot → Draft
  | .inside parent =>
    (d.change id ({ · with parent? := some parent })).change parent fun b =>
      { b with children := id :: b.children }
  | .before sibling =>
    match (d.get sibling).parent? with
    | some parent =>
      (d.change id ({ · with parent? := some parent })).change parent fun b =>
        { b with children := insertBefore sibling id b.children }
    | none => d

/-- The branch in front of a spot. -/
def previous? (d : Draft) : Spot → Option Nat
  | .inside parent => (d.get parent).children.head?
  | .before sibling => do
    let parent ← (d.get sibling).parent?
    ((d.get parent).children.dropWhile (· != sibling))[1]?

/-- Writes a character at a spot; a text goes on with a text in front of it. -/
def write (d : Draft) (c : Char) (spot : Spot) : Draft :=
  let fresh : Draft :=
    let (id, d) := d.create (.text c.toString)
    d.put id spot
  match d.previous? spot with
  | some id =>
    match (d.get id).item? with
    | some (.text _) =>
      d.change id fun b =>
        { b with
          item? :=
            match b.item? with
            | some (.text s) => some (.text (s.push c))
            | i? => i? }
    | _ => fresh
  | none => fresh

/-- Takes a branch from its place. -/
def detach (d : Draft) (id : Nat) : Draft :=
  match (d.get id).parent? with
  | some parent =>
    (d.change parent fun b => { b with children := b.children.filter (· != id) }).change id fun b =>
      { b with parent? := none }
  | none => d

/-- Hands all branches below one to another one. -/
def hand (d : Draft) (giver taker : Nat) : Draft :=
  let given := (d.get giver).children
  let d := d.change giver fun b => { b with children := [] }
  let d := d.change taker fun b => { b with children := given ++ b.children }
  given.foldl (fun d id => d.change id fun b => { b with parent? := some taker }) d

/-- Gives an element the attributes that it does not have yet. -/
def complete (d : Draft) (id : Nat) (attributes : List (String × String)) : Draft :=
  d.change id fun b =>
    match b.item? with
    | some (.element name qualifier ns old) =>
      let missing := attributes.filter fun a => !old.any (·.localName == a.1)
      { b with
        item? := some (.element name qualifier ns (old ++ missing.map fun a => .plain a.1 a.2)) }
    | _ => b

/-- Is this a template? What stands in one is no part of the tree. -/
def isTemplate : Item → Bool
  | .element "template" _ ns _ => ns == htmlNs
  | _ => false

/-- The finished forest below a branch, as far as `depth` levels go. -/
def levelsBelow (d : Draft) : (depth id : Nat) → Forest Item
  | 0, _ => .nil
  | depth + 1, id =>
    (d.get id).children.foldl
      (fun next child =>
        match (d.get child).item? with
        | some i => .node i (if isTemplate i then .nil else d.levelsBelow depth child) next
        | none => next)
      .nil

/-- The finished forest below a branch. -/
def below (d : Draft) (id : Nat) : Forest Item := d.levelsBelow d.branches.size id

end Draft

end DomHost.Markup
